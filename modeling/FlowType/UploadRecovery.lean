import FlowType.Staging

/-! Uploads that are interrupted and taken up again. The phone sends the bytes of one file from
the recorded offset on, verifies once all are recorded, and begins anew after a crash. -/
namespace FlowType

open Threads

namespace Storage

structure Good (hashFile : List UInt8 → String) (size : Nat) (hash : String) (d : Storage)
    (file : Nat) : Prop where
  length : (d.files file).bytes.length = size
  hash : hashFile (d.files file).bytes = hash
  durable : size ≤ (d.files file).synced

section
variable (hashFile : List UInt8 → String) (size : Nat) (content : List UInt8)

/-- What holds of an entry that one phone uploads, beside what is staged. -/
structure UploadInv (d : Storage) : Prop where
  part_lt : ∀ file, d.part = some file → file < d.nextFile
  target_lt : ∀ file, d.target = some file → file < d.nextFile
  part_ne : ∀ file, d.part = some file → d.target ≠ some file
  part_le : ∀ file, d.part = some file → (d.files file).bytes.length ≤ size
  sent : d.sent <+: content
  target : ∀ file, d.target = some file → d.Good hashFile size (hashFile content) file
  all_recorded : d.target.isSome = true → d.progress.committedOffset = size
  empty : d.part.isSome = true → d.target.isSome = true → size = 0
  completed : d.progress.state = .completed → d.part = none ∧ d.target.isSome = true

/-- The requests of the phone: it uploads what is missing, or an empty file, and verifies a file
of which all bytes are recorded, with its own hash. -/
def PhoneRequest (d : Storage) : Request → Prop
  | .upload offset _ => offset < size ∨ offset = 0
  | .verify hash _ => hash = hashFile content ∧ d.progress.committedOffset = size
  | _ => True

/-- What a request or a job relies on, beside what is staged. -/
def UploadStage (d : Storage) : Stage → Prop
  | .authorized r | .checked r | .leased r => d.PhoneRequest hashFile size content r
  | .opening offset _ => offset < size ∨ offset = 0
  | .verifying _ hash => hash = hashFile content ∧ d.progress.committedOffset = size
  | .comparing _ hash staged => hash = hashFile content ∧ d.progress.committedOffset = size ∧
    (staged = false → d.part = none)
  | .compared _ staged => d.progress.committedOffset = size ∧
    (staged = true → ∃ file, d.part = some file ∧
      d.Good hashFile size (hashFile content) file) ∧
    (staged = false → d.part = none ∧ d.target.isSome = true)
  | .committing _ => d.progress.committedOffset = size ∧
    ∃ file, d.part = some file ∧ d.Good hashFile size (hashFile content) file
  | .completing _ => d.part = none ∧ d.target.isSome = true
  | _ => True

/-- What every step guarantees: the offset is not lowered, and a target stays as it is. -/
structure Advances (d d' : Storage) : Prop where
  rises : d.progress.committedOffset ≤ d'.progress.committedOffset
  target : ∀ file, d.target = some file → d'.target = some file ∧ d'.files file = d.files file

end

section
variable {hashFile : List UInt8 → String} {size : Nat} {content : List UInt8} {d d' : Storage}

theorem Advances.refl (d : Storage) : Advances d d := ⟨le_rfl, fun _ h => ⟨h, rfl⟩⟩

theorem Good.of_eq {hash : String} {file : Nat} (h : d.Good hashFile size hash file)
    (hfile : d'.files file = d.files file) : d'.Good hashFile size hash file :=
  ⟨by rw [hfile]; exact h.length, by rw [hfile]; exact h.hash, by rw [hfile]; exact h.durable⟩

theorem Advances.trans {d'' : Storage} (h : d.Advances d') (h' : d'.Advances d'') :
    d.Advances d'' := by
  refine ⟨h.rises.trans h'.rises, ?_⟩
  intro file hfile
  obtain ⟨hfile', hsame⟩ := h.target file hfile
  obtain ⟨hfile'', hsame'⟩ := h'.target file hfile'
  exact ⟨hfile'', hsame'.trans hsame⟩

/-- A power failure does not change a file of which all is synced. -/
theorem Good.powerFailure {hash : String} {file : Nat} (h : d.Good hashFile size hash file)
    (junk : List UInt8) : (d.files file).powerFailure junk = d.files file := by
  have hsynced : (d.files file).bytes.length ≤ (d.files file).synced := by
    rw [h.length]
    exact h.durable
  have hnone : (d.files file).bytes.length - (d.files file).synced = 0 := by omega
  rw [FileData.powerFailure, hnone, List.take_zero, List.append_nil,
    List.take_of_length_le hsynced]

/-- As long as the entry is not recorded, a file that was renamed had all of its bytes recorded. -/
theorem UploadInv.not_unrecorded (h : d.UploadInv hashFile size content) {offset : Nat}
    (hinv : d.StagingInv size) (hoffset : offset = d.progress.committedOffset)
    (hphone : offset < size ∨ offset = 0) : ¬d.Unrecorded := by
  rintro ⟨hopen, hpos, hnone⟩
  rcases hinv.staged hopen with ⟨file, hpart, -⟩ | ⟨-, hzero | ⟨file, hfile, -⟩⟩
  · exact absurd (hpart.symm.trans hnone) (Option.some_ne_none file)
  · omega
  · have hall := h.all_recorded (by rw [hfile]; rfl)
    omega

theorem UploadInv.write {file : Nat} {data : FileData} {sent : List UInt8}
    (h : d.UploadInv hashFile size content) (hpart : d.part = some file)
    (hlength : data.bytes.length ≤ size) (hsent : sent <+: content) :
    UploadInv hashFile size content { d with files := Function.update d.files file data, sent } ∧
      Advances d { d with files := Function.update d.files file data, sent } := by
  have hother : ∀ other, d.target = some other →
      Function.update d.files file data other = d.files other := by
    intro other htarget
    refine Function.update_of_ne ?_ _ _
    rintro rfl
    exact h.part_ne other hpart htarget
  refine ⟨?_, le_rfl, fun other htarget => ⟨htarget, hother other htarget⟩⟩
  refine { h with part_le := ?_, sent := hsent, target := ?_ }
  · intro other hother
    obtain rfl : file = other := Option.some.inj (hpart.symm.trans hother)
    simp only [Function.update_self]
    exact hlength
  · intro other htarget
    exact (h.target other htarget).of_eq (hother other htarget)

theorem UploadInv.record (h : d.UploadInv hashFile size content) {progress : EntryProgress}
    (hrises : d.progress.committedOffset ≤ progress.committedOffset)
    (hle : progress.committedOffset ≤ size) (hnot : progress.state ≠ .completed) :
    UploadInv hashFile size content { d with progress } ∧ Advances d { d with progress } := by
  refine ⟨?_, hrises, fun _ htarget => ⟨htarget, rfl⟩⟩
  refine { h with
    target := fun file hfile => (h.target file hfile).of_eq rfl
    all_recorded := ?_
    completed := fun hcompleted => absurd hcompleted hnot }
  intro htarget
  have hall := h.all_recorded htarget
  exact le_antisymm hle (hall ▸ hrises)

theorem UploadInv.powerFailure (h : d.UploadInv hashFile size content)
    (junk : Nat → List UInt8) :
    (d.powerFailure junk).UploadInv hashFile size content ∧ d.Advances (d.powerFailure junk) := by
  have htarget : ∀ file, d.target = some file →
      (d.powerFailure junk).files file = d.files file :=
    fun file hfile => (h.target file hfile).powerFailure (junk file)
  refine ⟨?_, le_rfl, fun file hfile => ⟨hfile, htarget file hfile⟩⟩
  refine { h with part_le := ?_, target := ?_ }
  · intro file hpart
    exact (length_powerFailure_le _ _).trans (h.part_le file hpart)
  · intro file hfile
    exact (h.target file hfile).of_eq (htarget file hfile)

end

end Storage

namespace EntryPort
variable {hashFile : List UInt8 → String} {entry : ManifestEntry} {content : List UInt8}
  {p : EntryPort}

/-- What a step of the owner has to keep, beside what is staged. -/
structure Uploads (hashFile : List UInt8 → String) (size : Nat) (content : List UInt8)
    (p : EntryPort) (e : StageEffect) : Prop where
  inv : e.port.storage.UploadInv hashFile size content
  advances : p.storage.Advances e.port.storage
  next : e.port.storage.UploadStage hashFile size content e.next

theorem Uploads.same {size : Nat} {e : StageEffect}
    (h : p.storage.UploadInv hashFile size content) (hport : e.port.storage = p.storage)
    (hnext : p.storage.UploadStage hashFile size content e.next) :
    Uploads hashFile size content p e := by
  refine ⟨by rw [hport]; exact h, ?_, by rw [hport]; exact hnext⟩
  rw [hport]
  exact Storage.Advances.refl _

theorem Uploads.orFail {size : Nat} {failed : Answer → Stage} {input : Input}
    {effect : StageEffect} (h : p.storage.UploadInv hashFile size content)
    (hfailed : ∀ answer, p.storage.UploadStage hashFile size content (failed answer))
    (heffect : Uploads hashFile size content p effect) :
    Uploads hashFile size content p (p.orFail failed input effect) := by
  rcases orFail_cases p failed input effect with ⟨code, hcode⟩ | hcode
  · rw [hcode]
    exact .same h rfl (hfailed _)
  · rw [hcode]
    exact heffect

/-- A staged file is made beside a target only for an empty entry. -/
theorem uploads_openPart (h : p.storage.UploadInv hashFile entry.size content)
    (hnot : p.progress.state ≠ .completed)
    (hempty : p.target.isSome = true → entry.size = 0) :
    p.openPart.1.storage.UploadInv hashFile entry.size content ∧
      p.storage.Advances p.openPart.1.storage := by
  cases hpart : p.part with
  | some file =>
    rw [openPart_of_some hpart]
    exact ⟨h, Storage.Advances.refl _⟩
  | none =>
    have hopened := openPart_of_none hpart
    have hother : ∀ file, p.target = some file →
        Function.update p.files p.nextFile {} file = p.files file :=
      fun file hfile => Function.update_of_ne (h.target_lt file hfile).ne _ _
    rw [hopened]
    refine ⟨?_, le_rfl, fun file hfile => ⟨hfile, hother file hfile⟩⟩
    refine
      { part_lt := ?_, target_lt := fun file hfile => Nat.lt_succ_of_lt (h.target_lt file hfile)
        part_ne := ?_, part_le := ?_, sent := h.sent, target := ?_
        all_recorded := h.all_recorded, empty := fun _ htarget => hempty htarget
        completed := fun hcompleted => absurd hcompleted hnot }
    · intro file hfile
      obtain rfl := Option.some.inj hfile
      exact Nat.lt_succ_self _
    · intro file hfile htarget
      obtain rfl := Option.some.inj hfile
      exact absurd (h.target_lt p.nextFile htarget) (lt_irrefl _)
    · intro file hfile
      obtain rfl := Option.some.inj hfile
      change (Function.update p.files p.nextFile {} p.nextFile).bytes.length ≤ _
      rw [Function.update_self]
      exact Nat.zero_le _
    · intro file hfile
      exact (h.target file hfile).of_eq (hother file hfile)

theorem uploads_openStaged (h : p.storage.UploadInv hashFile entry.size content)
    (hinv : p.storage.StagingInv entry.size) {offset : Nat} (deferredHash : Bool)
    (hoffset : offset = p.progress.committedOffset) (hnot : p.progress.state ≠ .completed)
    (hphone : offset < entry.size ∨ offset = 0) :
    Uploads hashFile entry.size content p (p.openStaged offset deferredHash) := by
  have hempty : p.target.isSome = true → entry.size = 0 := by
    intro htarget
    have hall : p.progress.committedOffset = entry.size := h.all_recorded htarget
    omega
  obtain ⟨-, -, hpart, -⟩ := openPart_spec hinv hnot (h.not_unrecorded hinv hoffset hphone)
  obtain ⟨hopened, hadvances⟩ := uploads_openPart h hnot hempty
  rw [openStaged]
  split
  · exact ⟨hopened, hadvances, trivial⟩
  · have hlength : ((p.openPart.1.files p.openPart.2).setLen offset).bytes.length ≤ entry.size := by
      rw [FileData.setLen, List.length_take]
      exact (min_le_right _ _).trans (hopened.part_le _ hpart)
    obtain ⟨hwritten, hcut⟩ :=
      hopened.write hpart hlength ((List.take_prefix offset _).trans hopened.sent)
    exact ⟨hwritten, hadvances.trans hcut, trivial⟩

end EntryPort

/-- How far an upload that waits for the next frame has come. -/
def Stage.receivedBytes : Stage → Option Nat
  | .receiving _ received _ => some received
  | _ => none

theorem Stage.eq_receiving {s : Stage} {received : Nat} (h : s.receivedBytes = some received) :
    ∃ file hashed, s = .receiving file received hashed := by
  cases s with
  | receiving file received' hashed =>
    obtain rfl := Option.some.inj h
    exact ⟨file, hashed, rfl⟩
  | _ => cases h

def Input.data : Input → Option (List UInt8)
  | .frame data _ => some data
  | _ => none

theorem Input.eq_frame {input : Input} {data : List UInt8} (h : input.data = some data) :
    ∃ persist, input = .frame data persist := by
  cases input with
  | frame data' persist =>
    obtain rfl := Option.some.inj h
    exact ⟨persist, rfl⟩
  | _ => cases h

namespace PortWorld

section
variable (hashFile : List UInt8 → String) (entry : ManifestEntry) (content : List UInt8)

def FromPhone (w : PortWorld) : PortEvent → Prop
  | .request _ r => w.port.storage.PhoneRequest hashFile entry.size content r
  | .step thread input _ => ∀ file received hashed data persist,
      w.threads thread = some (.receiving file received hashed) →
        input = .frame data persist → data <+: content.drop received
  | _ => True

instance (d : Storage) (r : Request) :
    Decidable (d.PhoneRequest hashFile entry.size content r) := by
  cases r <;> unfold Storage.PhoneRequest <;> infer_instance

instance FromPhone.decidable (w : PortWorld) :
    ∀ e, Decidable (w.FromPhone hashFile entry content e)
  | .request _ r => inferInstanceAs (Decidable (w.port.storage.PhoneRequest _ _ _ r))
  | .step thread input _ =>
    decidable_of_iff
      (∀ s ∈ w.threads thread, ∀ received ∈ s.receivedBytes, ∀ data ∈ input.data,
        data <+: content.drop received)
      (by
        constructor
        · rintro h file received hashed data persist hthread rfl
          exact h _ hthread received rfl data rfl
        · intro h s hs received hreceived data hdata
          obtain ⟨file, hashed, rfl⟩ := Stage.eq_receiving hreceived
          obtain ⟨persist, rfl⟩ := Input.eq_frame hdata
          exact h file received hashed data persist hs rfl)
  | .offer _ | .cancel _ | .move _ | .prepare | .withdraw | .prune | .sweep | .tick _
  | .powerFailure _ => isTrue trivial

end

end PortWorld

end FlowType
