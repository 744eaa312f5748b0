import TaintdroidHack.KeyedStore
import TaintdroidHack.Trace

/-! `write_to_file` and `read_from_file`: a channel through `contacts.txt`. -/

namespace TaintdroidHack

open Framing KeyedStore

abbrev FileSystem := Bytes → Option Bytes

/-- What becomes of one stream: whether it opens, and after how many bytes it
fails, if it does. -/
structure StreamOutcome where
  opens : Bool
  limit : Option Nat

def StreamOutcome.ok : StreamOutcome := ⟨true, none⟩

def StreamOutcome.pass (o : StreamOutcome) (data : Bytes) : Bytes :=
  match o.limit with
  | none => data
  | some n => data.take n

structure FileRun (α : Type) where
  returned : Option α
  fs : FileSystem
  trace : List Event

def contactsPath (dir_ : JString) : Bytes :=
  let filePath := cString (getStringUTFChars dir_)
  cString (filePath ++ ascii "contacts.txt")

/-- Opening an `ofstream` truncates the file; a stream that did not open
ignores what is inserted, and nothing is reported to the caller. -/
def writeToFile (out : StreamOutcome) (fs : FileSystem) (content_ dir_ : JString) : FileRun Unit :=
  let content := getStringUTFChars content_
  let path := contactsPath dir_
  let t := [.acquire (.chars .content), .acquire (.chars .dir)]
  if out.opens then
    ⟨some (), Function.update fs path (some (out.pass (cString content))),
      t ++ [.acquire (.file path), .release (.file path)]⟩
  else ⟨some (), fs, t⟩

def readFromFile (inp : StreamOutcome) (fs : FileSystem) (path_ : JString) : FileRun JString :=
  let path := contactsPath path_
  let t := [.acquire (.chars .path)]
  match (if inp.opens then fs path else none) with
  | none => ⟨newStringUTF [], fs, t⟩
  | some data =>
    ⟨newStringUTF (inp.pass data), fs, t ++ [.acquire (.file path), .release (.file path)]⟩

theorem contactsPath_eq (dir_ : JString) :
    contactsPath dir_ = getStringUTFChars dir_ ++ ascii "contacts.txt" := by
  have h0 := zero_not_mem_getStringUTFChars dir_
  have h1 : (0 : UInt8) ∉ ascii "contacts.txt" := by decide
  rw [contactsPath, cString_of_zero_not_mem h0, cString_of_zero_not_mem (by simp [h0, h1])]

theorem contactsPath_injective : Function.Injective contactsPath := by
  intro a b h
  rw [contactsPath_eq, contactsPath_eq] at h
  exact Utf.encodeModified_injective (List.append_cancel_right h)

theorem writeToFile_fs {out : StreamOutcome} (ho : out.opens = true) (fs : FileSystem)
    (content_ dir_ : JString) : (writeToFile out fs content_ dir_).fs =
      Function.update fs (contactsPath dir_) (some (out.pass (getStringUTFChars content_))) := by
  rw [writeToFile, if_pos ho, cString_of_zero_not_mem (zero_not_mem_getStringUTFChars content_)]

theorem readFromFile_returned {inp : StreamOutcome} (hi : inp.opens = true) {fs : FileSystem}
    {path_ : JString} {data : Bytes} (h : fs (contactsPath path_) = some data) :
    (readFromFile inp fs path_).returned = newStringUTF (inp.pass data) := by
  rw [readFromFile, if_pos hi, h]

theorem readFromFile_missing (inp : StreamOutcome) {fs : FileSystem} {path_ : JString}
    (h : fs (contactsPath path_) = none) : (readFromFile inp fs path_).returned = some [] := by
  have hn : (if inp.opens then fs (contactsPath path_) else none) = none := by
    rw [h, ite_self]
  rw [readFromFile, hn]
  rfl

def fileChannel : Impl JString JString FileSystem where
  write fs dir_ content_ := (writeToFile .ok fs content_ dir_).fs
  read fs dir_ := (readFromFile .ok fs dir_).returned

def Stores (K : JString → Prop) (store : JString → JString) (fs : FileSystem) : Prop :=
  ∀ dir, K dir → fs (contactsPath dir) = some (getStringUTFChars (store dir)) ∨
    fs (contactsPath dir) = none ∧ store dir = []

theorem Stores.write {K : JString → Prop} {store : JString → JString} {fs : FileSystem}
    (h : Stores K store fs) (dir content : JString) :
    Stores K (Function.update store dir content) (fileChannel.write fs dir content) := by
  intro dir' hK
  show (writeToFile .ok fs content dir).fs (contactsPath dir') = _ ∨
    (writeToFile .ok fs content dir).fs (contactsPath dir') = _ ∧ _
  rw [writeToFile_fs rfl]
  by_cases he : dir' = dir
  · subst he
    left
    rw [Function.update_self, Function.update_self]
    rfl
  · have hp : contactsPath dir' ≠ contactsPath dir := fun hh => he (contactsPath_injective hh)
    rw [Function.update_of_ne hp, Function.update_of_ne he]
    exact h dir' hK

theorem Stores.read {K : JString → Prop} {store : JString → JString} {fs : FileSystem}
    (h : Stores K store fs) {dir : JString} (hK : K dir) :
    fileChannel.read fs dir = some (store dir) := by
  rcases h dir hK with hs | ⟨hn, he⟩
  · exact (readFromFile_returned rfl hs).trans (newStringUTF_getStringUTFChars _)
  · rw [he]
    exact readFromFile_missing _ hn

/-- Every read answers with the content of the latest write under the same
directory string, and with the empty string where there was none. -/
theorem fileChannel_answers (fs : FileSystem) (ops : List (Op JString JString))
    (hnone : ∀ op ∈ ops, fs (contactsPath op.key) = none) :
    fileChannel.answers fs ops = some (latestAnswers [] [] ops) := by
  let K : JString → Prop := fun dir => ∃ op ∈ ops, op.key = dir
  have h : Stores K (fun _ => []) fs := by
    rintro _ ⟨op, hop, rfl⟩
    exact .inr ⟨hnone op hop, rfl⟩
  have hrun := Impl.answers_eq (K := K) (R := Stores K)
    (fun _ _ dir content _ hR => hR.write dir content) (fun _ _ _ hk hR => hR.read hk)
    (fun op hop => ⟨op, hop, rfl⟩) h
  rw [hrun, ← answers_latest]
  rfl

theorem fileChannel_answers_overwrites :
    fileChannel.answers (fun _ => none)
        [.read [47], .write [47] [0, 0xd800, 65], .read [47], .write [47] [66], .write [] [67],
          .read [47], .write [47] [], .read [47], .read []] =
      some [[], [0, 0xd800, 65], [66], [], [67]] :=
  fileChannel_answers (fun _ => none) _ fun _ _ => rfl

end TaintdroidHack
