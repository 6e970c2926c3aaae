import ProtoRelay.Base.Bytes

/-!
# The DATA frame

What the SMTP clients of the system send as message data, `smtp_wire.h`: dots at the start of lines
are doubled, and a line with a single dot ends the data.
-/

namespace ProtoRelay

/-- The loop of `dot_stuff`, behind the byte `prev`. -/
def dotStuffFrom (prev : UInt8) : Bytes → Bytes
  | [] => []
  | b :: body =>
    if b = 46 ∧ prev = 10 then 46 :: b :: dotStuffFrom b body else b :: dotStuffFrom b body

/-- `dot_stuff`: the start of the body is the start of a line. -/
def dotStuff (body : Bytes) : Bytes := dotStuffFrom 10 body

/-- The bytes of `data_frame` in front of the last line. -/
def dataLines (body : Bytes) : Bytes :=
  if bytes "\r\n" <:+ dotStuff body then dotStuff body else dotStuff body ++ bytes "\r\n"

def dataFrame (body : Bytes) : Bytes := dataLines body ++ bytes ".\r\n"

end ProtoRelay
