import TaintdroidHack.SequentialActivity

/-! What the uploads of a run leave behind on the disk. -/

namespace TaintdroidHack

open SerialTasks

variable {χ : Type} {random : Nat → Nat} {filesDir : JString} {s : Activity}
  {acts : List (Action (Input χ) Answer)} {C : Activity → Action (Input χ) Answer → Prop}
  {world w : World} {ok : Conditions}

def WritesInFull (task : PostTask) (strings : List JString) (env : TaskEnv) : Prop :=
  task.securityLevel = .OBFUSCATED_NATIVE_FILESYSTEM → env.out.opens = true ∧
    env.out.pass (getStringUTFChars (content strings)) = getStringUTFChars (content strings)

def Conditions.writesInFull : Conditions :=
  ⟨fun task strings _ env => WritesInFull task strings env, fun _ => True⟩

def fileText? : Task → Option JString
  | .post task strings =>
    if task.securityLevel = .OBFUSCATED_NATIVE_FILESYSTEM then some (content strings) else none
  | .createContacts _ => none

theorem doInBackground_fs (filesDir : JString) (level : SecurityLevel) (env : TaskEnv)
    (fs : FileSystem) (strings : List JString) :
    (doInBackground (newPostTask filesDir level) env fs strings).fs =
      if level = .OBFUSCATED_NATIVE_FILESYSTEM then
        (writeToFile env.out fs (content strings) filesDir).fs
      else fs := by
  cases level with
  | REGULAR => exact sendBytes_fs _ _ _ _
  | OBFUSCATED_JAVA => exact sendBytes_fs _ _ _ _
  | OBFUSCATED_NATIVE_NETWORK => rfl
  | OBFUSCATED_NATIVE_UNTAINT =>
    rw [doInBackground]
    cases (untaint env.heap env.self env.iref).returned with
    | none => rfl
    | some iref => exact sendBytes_fs _ _ _ _
  | OBFUSCATED_NATIVE_FILESYSTEM => exact doInBackground_written rfl rfl env fs strings

def fileBytes (world : World) (filesDir : JString) (tasks : List Task) : Option Bytes :=
  match (tasks.filterMap fileText?).getLast? with
  | none => world.fs (contactsPath filesDir)
  | some text => some (getStringUTFChars text)

theorem fileBytes_append_none {tasks : List Task} {task : Task} (h : fileText? task = none) :
    fileBytes world filesDir (tasks ++ [task]) = fileBytes world filesDir tasks := by
  rw [fileBytes, fileBytes, List.filterMap_append, List.filterMap_cons_none h, List.filterMap_nil,
    List.append_nil]

theorem fileBytes_append_some {tasks : List Task} {task : Task} {text : JString}
    (h : fileText? task = some text) :
    fileBytes world filesDir (tasks ++ [task]) = some (getStringUTFChars text) := by
  rw [fileBytes, List.filterMap_append, List.filterMap_cons_some h, List.filterMap_nil,
    List.getLast?_concat]

/-- One call after `tasks`, which have left the file as they should. -/
theorem doInBackground_file {tasks : List Task} {level : SecurityLevel} {env : TaskEnv}
    {strings : List JString} (hw : WritesInFull (newPostTask filesDir level) strings env)
    (hfile : w.fs (contactsPath filesDir) = fileBytes world filesDir tasks) :
    (doInBackground (newPostTask filesDir level) env w.fs strings).fs (contactsPath filesDir) =
      fileBytes world filesDir (tasks ++ [.post (newPostTask filesDir level) strings]) := by
  rw [doInBackground_fs]
  by_cases hl : level = .OBFUSCATED_NATIVE_FILESYSTEM
  · have hlevel := (newPostTask_securityLevel filesDir level).trans hl
    obtain ⟨hopens, hpass⟩ := hw hlevel
    rw [if_pos hl, writeToFile_fs hopens, Function.update_self, hpass, fileBytes_append_some]
    exact if_pos hlevel
  · have hlevel := (newPostTask_securityLevel filesDir level).symm ▸ hl
    rw [if_neg hl, hfile, fileBytes_append_none]
    exact if_neg hlevel

theorem Sequential.file {results : List (Task × Option TaskResult)}
    (h : Sequential random .writesInFull world results w)
    (hsound : ∀ task ∈ results.map Prod.fst, ∃ n, task.Sound filesDir n) :
    w.fs (contactsPath filesDir) = fileBytes world filesDir (results.map Prod.fst) := by
  induction h with
  | nil => rfl
  | @post results w w' task strings result _ hw ih =>
    rw [List.map_append, List.forall_mem_append] at hsound
    obtain ⟨_, level, text, rfl, rfl⟩ := hsound.2 (.post task strings) (by simp)
    cases hw with
    | @mk env lines _ hok _ _ _ =>
      have hwrites : WritesInFull (newPostTask filesDir level) [text] (env.reading lines) := hok
      rw [List.map_append]
      exact doInBackground_file hwrites (ih hsound.1)
  | createContacts _ ih =>
    rw [List.map_append, List.forall_mem_append] at hsound
    rw [List.map_append, List.map_singleton, fileBytes_append_none rfl]
    exact ih hsound.1

def Stage.isBegun : Stage → Bool
  | .begun => true
  | _ => false

/-- The tasks whose write to the file, if there is one, is behind them. -/
def pastWrite (s : Activity) : List Task :=
  s.returned.map Prod.fst ++
    ((s.active.filter fun x => !x.2.stage.isBegun).map Prod.fst).toList

theorem pastWrite_begun {task : Task} {held : Held} (ht : s.active = some (task, held))
    (hb : held.stage.isBegun = true) : pastWrite s = s.returned.map Prod.fst := by
  rw [pastWrite, ht, Option.filter_some, hb]
  exact List.append_nil _

theorem pastWrite_not_begun {task : Task} {held : Held} (ht : s.active = some (task, held))
    (hb : held.stage.isBegun = false) : pastWrite s = s.returned.map Prod.fst ++ [task] := by
  rw [pastWrite, ht, Option.filter_some, hb]
  rfl

theorem Sound.returned (hsound : Sound filesDir s) (hacc : Accounts s) :
    ∀ task ∈ s.returned.map Prod.fst, ∃ n, task.Sound filesDir n := by
  intro task hmem
  refine ⟨_, hsound.tasks task ?_⟩
  rw [hacc.executed, List.append_assoc]
  exact List.mem_append_left _ hmem

theorem Refines.file (h : Refines random .writesInFull world w s) (hacc : Accounts s)
    (hsound : Sound filesDir s) :
    s.world.fs (contactsPath filesDir) = fileBytes world filesDir (pastWrite s) := by
  have hbefore := h.sequential.file (hsound.returned hacc)
  cases ha : s.active with
  | none =>
    rw [h.resting ha, hbefore, pastWrite, ha]
    exact congrArg _ (List.append_nil _).symm
  | some current =>
    obtain ⟨task, held⟩ := current
    cases task with
    | post task strings =>
      obtain ⟨level, text, rfl, rfl⟩ := hsound.tasks _ (hacc.active_mem ha)
      rcases (h.posting _ _ held ha).so_far with ⟨hstage, hw⟩ | ⟨hstage, -, env, hok, hrest⟩
      · rw [hw, hbefore, pastWrite_begun ha (by rw [hstage]; rfl)]
      · have hbegun : held.stage.isBegun = false := by
          cases hs : held.stage with
          | begun => exact absurd hs hstage
          | _ => rfl
        have hwrites : WritesInFull (newPostTask filesDir level) [text] (env.reading (.ok [])) :=
          hok
        rw [← (hrest (.ok [])).1, doInBackground_file hwrites hbefore,
          pastWrite_not_begun ha hbegun]
    | createContacts progressBar =>
      obtain ⟨-, demo, hw, -⟩ := h.creating progressBar held ha
      rw [hw]
      cases hbegun : held.stage.isBegun with
      | true => rw [pastWrite_begun ha hbegun, ← hbefore]
      | false => rw [pastWrite_not_begun ha hbegun, fileBytes_append_none rfl, ← hbefore]

end TaintdroidHack
