import TaintdroidHack.PostStages

/-! `MainActivity` and the two tasks it executes: the handlers of the main
thread and the background work, which `android.os.AsyncTask` runs on one thread
in the order of the calls of `execute`. -/

namespace TaintdroidHack

open Framing SerialTasks

variable {χ : Type}

def HOST_IP : JString := jstring "10.0.2.2"

inductive Visibility where
  | VISIBLE
  | GONE
  deriving DecidableEq, Repr

structure ProgressBar where
  visibility : Visibility
  progress : Int
  deriving DecidableEq, Repr

/-- Each creation of the activity inflates its own progress bar. The text of a
toast may be null. -/
structure View where
  progressBars : List ProgressBar
  toasts : List (Option String)

def View.setBar (view : View) (progressBar : Nat) (f : ProgressBar → ProgressBar) : Option View :=
  view.progressBars[progressBar]?.map fun bar =>
    { view with progressBars := view.progressBars.set progressBar (f bar) }

inductive Task where
  | post (task : PostTask) (strings : List JString)
  | createContacts (progressBar : Nat)

def Task.isPost : Task → Bool
  | .post _ _ => true
  | .createContacts _ => false

structure Upload where
  task : PostTask
  strings : List JString
  result : TaskResult

def Upload.asked (upload : Upload) : Task := .post upload.task upload.strings

def upload? : Task × Option TaskResult → Option Upload
  | (.post task strings, some result) => some ⟨task, strings, result⟩
  | _ => none

def TaskResult.getMessage : TaskResult → Option String
  | .success => none
  | .error message => some message

def PostTask.onPostExecute (taskResult : Option TaskResult) (view : View) : Option View :=
  taskResult.map fun taskResult =>
    let text := if taskResult.isError then taskResult.getMessage else some "Successfully sent data"
    { view with toasts := view.toasts ++ [text] }

def CreateContactsTask.onPreExecute (progressBar : Nat) (view : View) : Option View :=
  view.setBar progressBar fun bar => { bar with visibility := .VISIBLE }

def CreateContactsTask.onProgressUpdate (progressBar : Nat) (progress : List Int) (view : View) :
    Option View :=
  match progress with
  | [] => none
  | first :: _ => view.setBar progressBar fun bar => { bar with progress := first }

def CreateContactsTask.onPostExecute (progressBar : Nat) (view : View) : Option View :=
  view.setBar progressBar fun bar => { bar with visibility := .GONE }

/-- One round of the loop in `generateContacts`, or the return after the last. A
call of `applyBatch` whose exception is not caught has been attempted all the same. -/
def CreateContactsTask.work (random : Nat → Nat) (i : Nat) (world : World) (answer : Answer) :
    WorkPiece :=
  if i < NUM_CONTACTS_TO_CREATE then
    if answer.uncaught then
      .throws { world with demo := createContact random (fun _ => false) world.demo }
    else
      .publishes ⟨i + 1, .begun⟩
        { world with demo := createContact random (fun _ => answer.applies) world.demo }
        [(i : Int) / NUM_CONTACTS_TO_CREATE]
  else .returns world none

def newPostTask (filesDir : JString) : SecurityLevel → PostTask
  | .REGULAR => .new HOST_IP 8080 .REGULAR
  | .OBFUSCATED_JAVA => .new HOST_IP 8080 .OBFUSCATED_JAVA
  | .OBFUSCATED_NATIVE_NETWORK => .new HOST_IP 8080 .OBFUSCATED_NATIVE_NETWORK
  | .OBFUSCATED_NATIVE_UNTAINT => .new HOST_IP 8080 .OBFUSCATED_NATIVE_UNTAINT
  | .OBFUSCATED_NATIVE_FILESYSTEM =>
    .newWithFilesDir HOST_IP 8080 filesDir .OBFUSCATED_NATIVE_FILESYSTEM

/-- A click brings what the resolver answers while its handler runs. -/
inductive Input (χ : Type) where
  | onCreate
  | onClick (level : SecurityLevel) (cr : ContentResolver χ)
  | action_create_contacts

def onCreate (view : View) : View :=
  { view with progressBars := view.progressBars ++ [⟨.GONE, 0⟩] }

def onClick (filesDir : JString) (level : SecurityLevel) (cr : ContentResolver χ) : Option Task :=
  match (getContactsAsString cr).result with
  | .error _ => none
  | .ok text => some (.post (newPostTask filesDir level) [text])

def onOptionsItemSelected (view : View) : Option (View × Task) :=
  let progressBar := view.progressBars.length - 1
  (CreateContactsTask.onPreExecute progressBar view).map fun view =>
    (view, .createContacts progressBar)

/-- `execute` runs `onPreExecute` at once, on the main thread. The tasks share
one background thread and run there in the order they were executed. -/
def activity (random : Nat → Nat) (filesDir : JString) :
    Program Task Held World Answer (List Int) (Option TaskResult) (Input χ) View where
  onEvent
    | .onCreate, view => some (onCreate view, none)
    | .onClick level cr, view => (onClick filesDir level cr).map fun task => (view, some task)
    | .action_create_contacts, view =>
      (onOptionsItemSelected view).map fun (view, task) => (view, some task)
  start _ := ⟨0, .begun⟩
  work
    | .post task strings, held, world, answer => task.work strings held.stage world answer
    | .createContacts _, held, world, answer => CreateContactsTask.work random held.i world answer
  onProgress
    | .post _ _, _, view => some view
    | .createContacts progressBar, progress, view =>
      CreateContactsTask.onProgressUpdate progressBar progress view
  onResult
    | .post _ _, result, view => PostTask.onPostExecute result view
    | .createContacts progressBar, _, view => CreateContactsTask.onPostExecute progressBar view

abbrev Activity := State Task Held World (List Int) (Option TaskResult) View

def launched (world : World) : Activity := initial (onCreate ⟨[], []⟩) world

theorem onClick_resolver (filesDir : JString) (level : SecurityLevel) (state : ProviderState) :
    onClick (χ := χ) filesDir level state.resolver =
      some (.post (newPostTask filesDir level) [serialize state.rows]) := by
  rw [onClick, getContactsAsString_result]

theorem newPostTask_securityLevel (filesDir : JString) (level : SecurityLevel) :
    (newPostTask filesDir level).securityLevel = level := by
  cases level <;> rfl

theorem newPostTask_port (filesDir : JString) (level : SecurityLevel) :
    (newPostTask filesDir level).port = some 8080 := by
  cases level <;> rfl

theorem throws_newPostTask_iff (filesDir : JString) (level : SecurityLevel)
    (strings : List JString) (stage : Stage) (world : World) (answer : Answer) :
    Throws ((newPostTask filesDir level).work strings stage world answer) ↔
      answer.uncaught = true ∨
        (newPostTask filesDir level).DiesAt strings answer.env world.fs stage := by
  apply throws_work_iff
  · rw [newPostTask_port]
    rfl
  · intro hl
    obtain rfl := (newPostTask_securityLevel filesDir level).symm.trans hl
    rfl

end TaintdroidHack
