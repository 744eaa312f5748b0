import TaintdroidHack.SequentialActivity

/-! What the uploads of a run deliver. -/

namespace TaintdroidHack

open Framing Transfer SerialTasks

variable {χ : Type} {random : Nat → Nat} {filesDir : JString} {s : Activity}
  {acts : List (Action (Input χ) Answer)} {C : Activity → Action (Input χ) Answer → Prop}
  {world w : World} {task : PostTask} {strings : List JString} {fs : FileSystem} {env : TaskEnv}

/-- What a task adds to the bodies, on the routes that send `bytes`. -/
def Contributes (bytes : SecurityLevel → JString → Bytes) :
    Task × Option TaskResult → List Bytes → Prop
  | (.post task strings, result), bodies =>
    (bodies = [] ∨ bodies = [bytes task.securityLevel (content strings)]) ∧
      (result = some .success → bodies = [bytes task.securityLevel (content strings)])
  | (.createContacts _, _), bodies => bodies = []

/-- Every step of an upload succeeds, its request fits the array, and its
response, however many lines it has, ends without an error. -/
def Conditions.succeed : Conditions where
  env task strings _ env :=
    FitsArray task strings ∧ ∀ read, StepsSucceed task (env.reading (.ok read)) strings
  line line := ∀ e, line ≠ .error e

def Succeeds (s : Activity) : Action (Input χ) Answer → Prop
  | .event (.onClick _ cr) => ∃ text, (getContactsAsString cr).result = .ok text
  | .work answer => answer.uncaught = false ∧
    ∀ task held, s.active = some (task, held) → task.Meets .succeed held s.world answer
  | _ => True

theorem Succeeds.answers {a : Action (Input χ) Answer} (h : Succeeds s a) :
    Answers (Task.Meets .succeed) s a := by
  cases a with
  | work answer => exact h.2
  | _ => trivial

theorem Contributes.congr {bytes bytes' : SecurityLevel → JString → Bytes}
    {x : Task × Option TaskResult} {bodies : List Bytes} (h : Contributes bytes x bodies)
    (hbytes : ∀ task strings, x.1 = .post task strings →
      bytes task.securityLevel (content strings) = bytes' task.securityLevel (content strings)) :
    Contributes bytes' x bodies := by
  obtain ⟨task, result⟩ := x
  cases task with
  | post task strings =>
    rw [Contributes, hbytes task strings rfl] at h
    exact h
  | createContacts _ => exact h

end TaintdroidHack
