import ProtoRelay.Base.Bytes

/-!
# Cleaning up after a mail that was not stored

The SMTP session and the submission service write a body to the storage of their shard.  When the
mail is not stored, or was stored before, the persistence queue removes its files.
-/

namespace ProtoRelay

open List

/-- The storages of an `IShardRouter`, one for each shard. -/
structure Storages (P : Type*) where
  storages : List P
  nodup : storages.Nodup

/-- What is stored where; what is in no storage is a local file. -/
abbrev Objects (P : Type*) := Option P → Bytes → Option Bytes

/-- What the queue reads of a `mail`. -/
structure MailFiles where
  bodyPath : Bytes
  /-- the `filepath` of each attachment -/
  attachments : List Bytes
  /-- the key of a body has the mail's id in it -/
  bodyPath_ne : bodyPath ≠ []

def MailFiles.paths (m : MailFiles) : List Bytes :=
  (m.bodyPath :: m.attachments).filter (!·.isEmpty)

variable {P : Type*} (r : Storages P)

def Storages.getStorage (shard : Nat) : Option P := r.storages[shard]?

theorem Storages.getStorage_eq_zero_iff (shard : Nat) :
    r.getStorage shard = r.getStorage 0 ↔ shard = 0 ∨ r.storages = [] := by
  constructor
  · intro h
    rcases hs : r.storages with _ | ⟨first, rest⟩
    · exact .inr rfl
    · exact .inl ((getElem?_inj (i := 0) (by simp [hs]) r.nodup).mp h.symm).symm
  · rintro (rfl | h)
    · rfl
    · simp [getStorage, h]

variable [DecidableEq P] (m : MailFiles) (w : Objects P)

def Objects.set (place : Option P) (path : Bytes) (object : Option Bytes) : Objects P :=
  fun place' path' => if place' = place ∧ path' = path then object else w place' path'

/-- A body that the writer of a shard has committed. -/
def writeBody (shard : Nat) (body : Bytes) : Objects P := w.set (r.getStorage shard) m.bodyPath body

/-- `cleanup_mail_files` of the persistence queue, where the removals succeed. -/
def cleanupMailFiles : Objects P := m.paths.foldl (fun w path => w.set (r.getStorage 0) path none) w

/-- The files of the mail are gone from the storage of its shard, and the other storages are as
before. -/
def CleansUp (shard : Nat) (body : Bytes) : Prop :=
  let before := writeBody r m w shard body
  (∀ path ∈ m.paths, cleanupMailFiles r m before (r.getStorage shard) path = none) ∧
  ∀ place path, place ≠ r.getStorage shard → cleanupMailFiles r m before place path =
    before place path

section

variable {r m w} {place : Option P} {path : Bytes}

/-- **Only what lies in the storage of shard 0 is touched.** -/
theorem cleanupMailFiles_of_ne (h : place ≠ r.getStorage 0) :
    cleanupMailFiles r m w place path = w place path := by
  unfold cleanupMailFiles
  induction m.paths generalizing w with
  | nil => rfl
  | cons first paths ih => simp [ih, Objects.set, h]

theorem cleanupMailFiles_of_mem (h : path ∈ m.paths) :
    cleanupMailFiles r m w (r.getStorage 0) path = none := by
  unfold cleanupMailFiles
  -- a path that has been removed stays removed
  replace h := Or.inr (a := w (r.getStorage 0) path = none) h
  generalize m.paths = paths at h
  induction paths generalizing w with
  | nil => simpa using h
  | cons first paths ih =>
    refine ih ?_
    by_cases hfirst : path = first
    · exact .inl (by simp [Objects.set, hfirst])
    · simpa [Objects.set, hfirst] using h

end

/-- **The queue cleans up what was written for shard 0 only**; without storages all are local
files. -/
theorem cleansUp_iff (shard : Nat) (body : Bytes) :
    CleansUp r m w shard body ↔ shard = 0 ∨ r.storages = [] := by
  rw [← r.getStorage_eq_zero_iff]
  constructor
  · rintro ⟨hgone, -⟩
    by_contra hne
    have hbody := hgone m.bodyPath (by simp [MailFiles.paths, m.bodyPath_ne])
    rw [cleanupMailFiles_of_ne hne] at hbody
    simp [writeBody, Objects.set] at hbody
  · intro heq
    unfold CleansUp
    rw [heq]
    exact ⟨fun path => cleanupMailFiles_of_mem, fun place path => cleanupMailFiles_of_ne⟩

/-- The body of shard 1 stays where it is. -/
theorem not_cleansUp_second_shard :
    ¬ CleansUp ⟨[false, true], by decide⟩ ⟨[49], [], by decide⟩ (fun _ _ => none) 1 [72, 105] := by
  intro h
  exact absurd (h.1 [49] mem_cons_self) (by decide)

end ProtoRelay
