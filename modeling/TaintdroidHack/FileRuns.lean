import TaintdroidHack.Routes

/-! Runs of the file system route one after another over one `contacts.txt`:
when each of them sends its own content. -/

namespace TaintdroidHack

open Framing

structure Job where
  address : JString
  port : Int
  env : TaskEnv
  strings : List JString

def Job.task (job : Job) (filesDir : JString) : PostTask :=
  .newWithFilesDir job.address job.port filesDir .OBFUSCATED_NATIVE_FILESYSTEM

def Job.run (job : Job) (filesDir : JString) (fs : FileSystem) : TaskRun :=
  doInBackground (job.task filesDir) job.env fs job.strings

def runJobs (filesDir : JString) (fs : FileSystem) : List Job → List TaskRun
  | [] => []
  | job :: jobs => job.run filesDir fs :: runJobs filesDir (job.run filesDir fs).fs jobs

def PostsOwn (job : Job) (run : TaskRun) : Prop :=
  Accepted run.result → run.body = some (Utf.encodeUtf8 (content job.strings))

/-- The streams bring back the bytes of `data`: they are stored in full, or are
in the file already, and are read in full; no bytes at all also survive a
missing file or a read that does not open. -/
def BringsBack (env : TaskEnv) (file : Option Bytes) (data : Bytes) : Prop :=
  (env.out.opens = true ∧ env.out.pass data = data ∨ env.out.opens = false ∧ file = some data) ∧
      env.inp.opens = true ∧ env.inp.pass data = data ∨
    data = [] ∧ (env.inp.opens = false ∨ env.out.opens = false ∧ file = none)

def Job.Keeps (job : Job) (filesDir : JString) (fs : FileSystem) : Prop :=
  BringsBack job.env (fs (contactsPath filesDir)) (getStringUTFChars (content job.strings)) ∨
    ¬ (job.env.utf8 = true ∧ job.env.http.Succeeds (job.task filesDir).buildUrl)

def AllKeep (filesDir : JString) (fs : FileSystem) : List Job → Prop
  | [] => True
  | job :: jobs => job.Keeps filesDir fs ∧ AllKeep filesDir (job.run filesDir fs).fs jobs

theorem readFromFile_closed {inp : StreamOutcome} (hi : inp.opens = false) (fs : FileSystem)
    (path_ : JString) : (readFromFile inp fs path_).returned = some [] := by
  rw [readFromFile, hi]
  rfl

theorem writeToFile_closed {out : StreamOutcome} (ho : out.opens = false) (fs : FileSystem)
    (content_ dir_ : JString) : (writeToFile out fs content_ dir_).fs = fs := by
  rw [writeToFile, ho]
  rfl

theorem eq_nil_of_getStringUTFChars {s : JString} (h : getStringUTFChars s = []) : s = [] :=
  Utf.encodeModified_injective h

theorem BringsBack.readFromFile {env : TaskEnv} {fs : FileSystem} {filesDir s : JString}
    (h : BringsBack env (fs (contactsPath filesDir)) (getStringUTFChars s)) :
    (readFromFile env.inp (writeToFile env.out fs s filesDir).fs filesDir).returned = some s := by
  rcases h with ⟨hstored, hi, hpass⟩ | ⟨hnil, hempty⟩
  · rcases hstored with ⟨ho, hall⟩ | ⟨ho, hfile⟩
    · exact readFromFile_writeToFile ⟨ho, hall, hi, hpass⟩ fs
    · rw [writeToFile_closed ho, readFromFile_returned hi hfile, hpass,
        newStringUTF_getStringUTFChars]
  · rw [eq_nil_of_getStringUTFChars hnil]
    rcases hempty with hi | ⟨ho, hfile⟩
    · exact readFromFile_closed hi _ _
    · rw [writeToFile_closed ho, readFromFile_missing _ hfile]

theorem sendBytes_accepted_iff {task : PostTask} {env : TaskEnv} {fs : FileSystem}
    {str : JString} : Accepted (sendBytes task env fs str).result ↔
      env.utf8 = true ∧ env.http.Succeeds task.buildUrl := by
  by_cases hu : env.utf8 = true
  · simp only [sendBytes, getBytes, hu, if_true, true_and]
    exact (accepted_iff _).trans (javaSendDataTo_success_iff _ _ _)
  · simp [Accepted, sendBytes, getBytes, hu, unexpected, TaskResult.isError]

theorem Job.run_eq (job : Job) (filesDir : JString) (fs : FileSystem) :
    job.run filesDir fs =
      let written := (writeToFile job.env.out fs (content job.strings) filesDir).fs
      match (readFromFile job.env.inp written filesDir).returned with
      | none => ⟨none, none, written⟩
      | some filesystem => sendBytes (job.task filesDir) job.env written filesystem := rfl

theorem Job.Keeps.postsOwn {job : Job} {filesDir : JString} {fs : FileSystem}
    (h : job.Keeps filesDir fs) : PostsOwn job (job.run filesDir fs) := by
  intro hacc
  rw [Job.run_eq] at hacc ⊢
  dsimp only at hacc ⊢
  cases hread : (readFromFile job.env.inp
      (writeToFile job.env.out fs (content job.strings) filesDir).fs filesDir).returned with
  | none =>
    rw [hread] at hacc
    obtain ⟨result, hr, -⟩ := hacc
    contradiction
  | some filesystem =>
    rw [hread] at hacc
    have hsucceeds := sendBytes_accepted_iff.mp hacc
    have hback := (h.resolve_right (not_not_intro hsucceeds)).readFromFile
    obtain rfl := Option.some.inj (hread.symm.trans hback)
    exact congrArg TaskRun.body (sendBytes_of_succeeds hsucceeds.1 hsucceeds.2 _ _)

/-- Runs over one file post what is their own, as long as each of them brings its
bytes back from the file or is not accepted. -/
theorem allKeep_postsOwn (filesDir : JString) (fs : FileSystem) (jobs : List Job)
    (h : AllKeep filesDir fs jobs) : List.Forall₂ PostsOwn jobs (runJobs filesDir fs jobs) := by
  induction jobs generalizing fs with
  | nil => exact .nil
  | cons job jobs ih =>
    obtain ⟨hkeeps, hrest⟩ := h
    exact .cons hkeeps.postsOwn (ih (job.run filesDir fs).fs hrest)

def letterJob (unit : UInt16) (out : StreamOutcome) : Job :=
  ⟨[65], 80, { succeedingEnv with out := out }, [[unit]]⟩

theorem allKeep_postsOwn_repeated :
    List.Forall₂ PostsOwn [letterJob 65 .ok, letterJob 65 ⟨false, none⟩]
      (runJobs [47] (fun _ => none) [letterJob 65 .ok, letterJob 65 ⟨false, none⟩]) :=
  allKeep_postsOwn [47] (fun _ => none) _
    ⟨.inl (.inl ⟨.inl ⟨rfl, rfl⟩, rfl, rfl⟩), .inl (.inl ⟨.inr ⟨rfl, by decide⟩, rfl, rfl⟩), trivial⟩

-- The second run does not open the file for writing and posts what the first one wrote.
theorem stale_content_posted :
    (runJobs [47] (fun _ => none) [letterJob 65 .ok, letterJob 66 ⟨false, none⟩]).map
        (fun run => (run.result, run.body)) =
      [(some .success, some [65, 10]), (some .success, some [65, 10])] ∧
      ¬ List.Forall₂ PostsOwn [letterJob 65 .ok, letterJob 66 ⟨false, none⟩]
        (runJobs [47] (fun _ => none) [letterJob 65 .ok, letterJob 66 ⟨false, none⟩]) := by
  refine ⟨by decide, fun hown => ?_⟩
  obtain ⟨-, hown⟩ := List.forall₂_cons.mp hown
  obtain ⟨hsecond, -⟩ := List.forall₂_cons.mp hown
  exact absurd (hsecond ⟨.success, by decide, rfl⟩) (by decide)

end TaintdroidHack
