import TaintdroidHack.ActivityRuns

/-! What the user is shown: a toast for each click, in the order of the
clicks, and progress bars that are hidden when nothing is left to do. -/

namespace TaintdroidHack

open SerialTasks

variable {χ : Type} {random : Nat → Nat} {filesDir : JString} {s s' : Activity}
  {a : Action (Input χ) Answer} {acts : List (Action (Input χ) Answer)}
  {C : Activity → Action (Input χ) Answer → Prop} {world : World} {view view' : View}

def clicked (filesDir : JString) : Action (Input χ) Answer → Option Task
  | .event (.onClick level cr) => onClick filesDir level cr
  | _ => none

def toastText : TaskResult → String
  | .success => "Successfully sent data"
  | .error message => message

theorem onEvent_clicked {i : Input χ} {task : Option Task}
    (h : Handled filesDir view i view' task) :
    (task.toList.filter Task.isPost) =
      (clicked filesDir (.event i : Action (Input χ) Answer)).toList := by
  cases h with
  | onCreate => rfl
  | onClick hr =>
    rw [clicked, onClick, hr]
    rfl
  | selected _ _ => rfl

theorem onEvent_none_clicked {i : Input χ}
    (h : (activity random filesDir).onEvent i view = none) :
    clicked filesDir (.event i : Action (Input χ) Answer) = none := by
  cases i with
  | onClick level cr => exact Option.map_eq_none_iff.mp h
  | _ => rfl

theorem Step.posts (h : Step (activity random filesDir) s a s') :
    s'.executed.filter Task.isPost =
      s.executed.filter Task.isPost ++ (clicked filesDir a).toList := by
  cases h with
  | refused _ he => simp [onEvent_none_clicked he]
  | handled _ he => simp [← onEvent_clicked (onEvent_handled he)]
  | executed _ he =>
    rw [List.filter_append, ← onEvent_clicked (onEvent_handled he)]
    rfl
  | _ => exact (List.append_nil _).symm

theorem posts_executed (h : Runs (activity random filesDir) C (launched world) acts s) :
    s.executed.filter Task.isPost = acts.filterMap (clicked filesDir) := by
  refine h.keeps (I := fun acts s => s.executed.filter Task.isPost =
    acts.filterMap (clicked filesDir)) rfl ?_
  intro acts s a s' hs _ hstep
  rw [Step.posts hstep, hs, List.filterMap_append]
  cases hc : clicked filesDir a <;> simp [hc]

def reports (s : Activity) : List Upload := s.finished.filterMap upload?

theorem onPostExecute_eq (result : TaskResult) (view : View) :
    PostTask.onPostExecute (some result) view =
      some { view with toasts := view.toasts ++ [some (toastText result)] } := by
  cases result <;> rfl

/-- No upload is reported with a null result, or with a toast that has no text. -/
structure Toasts (s : Activity) : Prop where
  finished : s.finished.filter (fun x => x.1.isPost) =
    (reports s).map fun upload => (upload.asked, some upload.result)
  shown : s.view.toasts = (reports s).map fun upload => some (toastText upload.result)

theorem Handled.toasts {i : Input χ} {task : Option Task}
    (h : Handled filesDir view i view' task) : view'.toasts = view.toasts := by
  cases h with
  | onCreate => rfl
  | onClick _ => rfl
  | selected _ h =>
    obtain ⟨-, -, -, ht⟩ := View.setBar_eq_some h
    exact ht

theorem onProgress_toasts {task : Task} {value : List Int}
    (h : (activity (χ := χ) random filesDir).onProgress task value view = some view') :
    view'.toasts = view.toasts := by
  cases task with
  | post _ _ =>
    obtain rfl := Option.some.inj h
    rfl
  | createContacts progressBar =>
    cases value with
    | nil => contradiction
    | cons _ _ =>
      obtain ⟨-, -, -, ht⟩ := View.setBar_eq_some h
      exact ht

theorem Toasts.redrawn (hs : Toasts s) (hf : s'.finished = s.finished)
    (ht : s'.view.toasts = s.view.toasts) : Toasts s' := by
  have hreports : reports s' = reports s := congrArg (List.filterMap upload?) hf
  refine ⟨?_, ?_⟩
  · rw [hf, hreports]
    exact hs.finished
  · rw [ht, hreports]
    exact hs.shown

theorem Toasts.finish (hs : Toasts s) {x : Task × Option TaskResult}
    (hf : s'.finished = s.finished ++ [x])
    (hx : [x].filter (fun x => x.1.isPost) =
      (upload? x).toList.map fun upload => (upload.asked, some upload.result))
    (ht : s'.view.toasts =
      s.view.toasts ++ (upload? x).toList.map fun upload => some (toastText upload.result)) :
    Toasts s' := by
  have hreports : reports s' = reports s ++ (upload? x).toList := by
    rw [reports, hf, List.filterMap_append]
    cases hr : upload? x <;> simp [hr, reports]
  refine ⟨?_, ?_⟩
  · rw [hf, hreports, List.filter_append, List.map_append, hx, hs.finished]
  · rw [ht, hreports, List.map_append, hs.shown]

theorem Step.toasts (h : Step (activity random filesDir) s a s') (hs : Toasts s) : Toasts s' := by
  cases h with
  | handled _ he => exact hs.redrawn rfl (onEvent_handled he).toasts
  | executed _ he => exact hs.redrawn rfl (onEvent_handled he).toasts
  | progressed _ _ hp => exact hs.redrawn rfl (onProgress_toasts hp)
  | @finished task result _ view _ _ hr =>
    cases task with
    | post task strings =>
      cases result with
      | none => contradiction
      | some result =>
        have hsome := (onPostExecute_eq result s.view).symm.trans hr
        obtain rfl := Option.some.inj hsome
        exact hs.finish rfl rfl rfl
    | createContacts progressBar =>
      obtain ⟨-, -, -, ht⟩ := View.setBar_eq_some hr
      exact hs.finish rfl rfl (ht.trans (List.append_nil _).symm)
  | _ => exact hs.redrawn rfl rfl

theorem runs_toasts (h : Runs (activity random filesDir) C (launched world) acts s) : Toasts s :=
  h.keeps (I := fun _ s => Toasts s) ⟨rfl, rfl⟩ fun _ _ _ _ hs _ hstep => Step.toasts hstep hs

theorem clicks_eq (h : Runs (activity random filesDir) C (launched world) acts s) :
    acts.filterMap (clicked filesDir) =
      (reports s).map Upload.asked ++ (unfinished s).filter Task.isPost := by
  have hposts : (s.finished.map Prod.fst).filter Task.isPost = (reports s).map Upload.asked := by
    have hfst := congrArg (List.map Prod.fst) (runs_toasts h).finished
    rw [List.map_map] at hfst
    rw [List.filter_map]
    exact hfst
  rw [← posts_executed h, (runs_sound h).1.executed_eq, List.filter_append, hposts]

/-- Each click is reported by at most one toast, in the order of the clicks; the
uploads without one are unfinished. -/
theorem clicks_reported_in_order
    (h : Runs (activity random filesDir) C (launched world) acts s) :
    s.view.toasts = (reports s).map (fun upload => some (toastText upload.result)) ∧
      s.finished.filter (fun x => x.1.isPost) =
        (reports s).map (fun upload => (upload.asked, some upload.result)) ∧
      acts.filterMap (clicked filesDir) =
        (reports s).map Upload.asked ++ (unfinished s).filter Task.isPost :=
  ⟨(runs_toasts h).shown, (runs_toasts h).finished, clicks_eq h⟩

theorem clicks_reported_in_order_twice :
    creatingState.view.toasts = [some "Successfully sent data", some "Successfully sent data"] ∧
      creatingState.view.toasts =
        (reports creatingState).map (fun upload => some (toastText upload.result)) ∧
      creatingState.finished.filter (fun x => x.1.isPost) =
        (reports creatingState).map (fun upload => (upload.asked, some upload.result)) ∧
      creatingRun.filterMap (clicked [47]) =
        (reports creatingState).map Upload.asked ++ (unfinished creatingState).filter Task.isPost :=
  ⟨rfl, clicks_reported_in_order runs_creating⟩

def View.Shows (view : View) (progressBar : Nat) : Prop :=
  ∃ bar, view.progressBars[progressBar]? = some bar ∧ bar.visibility = .VISIBLE

theorem View.Shows.of_setBar {progressBar i : Nat} {f : ProgressBar → ProgressBar}
    (h : view.setBar progressBar f = some view') (hs : view'.Shows i) :
    (i = progressBar ∧ ∃ bar, view.progressBars[progressBar]? = some bar ∧
      (f bar).visibility = .VISIBLE) ∨ i ≠ progressBar ∧ view.Shows i := by
  obtain ⟨bar, hbar, hset, -⟩ := View.setBar_eq_some h
  obtain ⟨hlt, -⟩ := List.getElem?_eq_some_iff.mp hbar
  obtain ⟨bar', hbar', hvisible⟩ := hs
  rw [hset, List.getElem?_set] at hbar'
  by_cases heq : i = progressBar
  · rw [if_pos heq.symm, if_pos hlt] at hbar'
    obtain rfl := Option.some.inj hbar'
    exact .inl ⟨heq, bar, hbar, hvisible⟩
  · rw [if_neg (Ne.symm heq)] at hbar'
    exact .inr ⟨heq, bar', hbar', hvisible⟩

theorem Handled.shows {i : Input χ} {task : Option Task}
    (h : Handled filesDir view i view' task) {progressBar : Nat} (hs : view'.Shows progressBar) :
    view.Shows progressBar ∨ task = some (.createContacts progressBar) := by
  cases h with
  | onCreate =>
    obtain ⟨bar, hbar, hvisible⟩ := hs
    have hbar' : (view.progressBars ++ [⟨.GONE, 0⟩])[progressBar]? = some bar := hbar
    rw [List.getElem?_append] at hbar'
    split at hbar'
    · exact .inl ⟨bar, hbar', hvisible⟩
    · rw [List.mem_singleton.mp (List.mem_of_getElem? hbar')] at hvisible
      contradiction
  | onClick _ => exact .inl hs
  | selected _ h =>
    rcases hs.of_setBar h with ⟨rfl, -⟩ | ⟨-, hs⟩
    · exact .inr rfl
    · exact .inl hs

theorem onProgress_shows {task : Task} {value : List Int}
    (h : (activity (χ := χ) random filesDir).onProgress task value view = some view')
    {progressBar : Nat} (hs : view'.Shows progressBar) : view.Shows progressBar := by
  cases task with
  | post _ _ =>
    obtain rfl := Option.some.inj h
    exact hs
  | createContacts bar =>
    cases value with
    | nil => contradiction
    | cons _ _ =>
      rcases hs.of_setBar h with ⟨rfl, bar, hbar, hvisible⟩ | ⟨-, hs⟩
      · exact ⟨bar, hbar, hvisible⟩
      · exact hs

theorem onResult_shows {task : Task} {result : Option TaskResult}
    (h : (activity (χ := χ) random filesDir).onResult task result view = some view')
    {progressBar : Nat} (hs : view'.Shows progressBar) :
    task ≠ .createContacts progressBar ∧ view.Shows progressBar := by
  cases task with
  | post _ _ =>
    obtain ⟨_, _, rfl⟩ := Option.map_eq_some_iff.mp h
    exact ⟨by simp, hs⟩
  | createContacts bar =>
    rcases hs.of_setBar h with ⟨-, _, -, hgone⟩ | ⟨hne, hs⟩
    · contradiction
    · exact ⟨fun he => hne (Task.createContacts.inj he).symm, hs⟩

theorem Step.shows (h : Step (activity random filesDir) s a s') {progressBar : Nat}
    (hs : s'.view.Shows progressBar) :
    s.view.Shows progressBar ∨ .createContacts progressBar ∈ unfinished s' := by
  cases h with
  | handled _ he =>
    exact .inl (((onEvent_handled he).shows hs).resolve_right (by simp))
  | executed _ he =>
    refine ((onEvent_handled he).shows hs).imp_right fun htask => ?_
    obtain rfl := Option.some.inj htask
    simp [unfinished]
  | progressed _ _ hp => exact .inl (onProgress_shows hp hs)
  | finished _ _ hr => exact .inl (onResult_shows hr hs).2
  | _ => exact .inl hs

/-- A bar that is shown belongs to a creation of contacts that has not been finished. -/
theorem shows_unfinished (h : Runs (activity random filesDir) C (launched world) acts s) :
    ∀ progressBar, s.view.Shows progressBar → .createContacts progressBar ∈ unfinished s := by
  refine h.keeps (I := fun _ s => ∀ i, s.view.Shows i → .createContacts i ∈ unfinished s) ?_ ?_
  · intro i ⟨bar, hbar, hvisible⟩
    rw [List.mem_singleton.mp (List.mem_of_getElem? hbar)] at hvisible
    contradiction
  · intro _ s a s' hs _ hstep i hshows
    rcases Step.shows hstep hshows with hbefore | hmem
    · rcases hstep.mem_unfinished (hs i hbefore) with hmem | ⟨_, hr⟩
      · exact hmem
      · exact absurd rfl (onResult_shows hr hshows).1
    · exact hmem

/-- The responses of the uploads send no line after their first `n`. -/
def Task.Ends (n : Nat) : Task → Held → World → Answer → Prop
  | .post _ _, held, _, answer => held.stage.Ends n answer
  | .createContacts _, _, _, _ => True

def taskCost (n : Nat) : Task → Held → Nat
  | .post _ _, held => held.stage.cost n
  | .createContacts _, held => NUM_CONTACTS_TO_CREATE - held.i

theorem activity_lowers (n : Nat) :
    Lowers (activity (χ := χ) random filesDir) (Task.Ends n) (taskCost n) := by
  intro task held world answer held' world' hends hw
  rcases hw with hw | ⟨_, hw⟩
  · obtain ⟨post, strings, rfl, hpost⟩ := work_continues hw
    have hpiece := pieceOf_work post strings held.stage world answer
    rw [hpost] at hpiece
    cases hpiece with
    | goesOn hnext => exact hnext.cost_lt hends
  · obtain ⟨⟨_, rfl⟩, hlt, rfl, -⟩ := work_publishes hw
    show NUM_CONTACTS_TO_CREATE - (held.i + 1) < NUM_CONTACTS_TO_CREATE - held.i
    omega

structure AtRest (filesDir : JString) (acts : List (Action (Input χ) Answer)) (s : Activity) :
    Prop where
  idle : Idle s
  reported : (reports s).map Upload.asked = acts.filterMap (clicked filesDir)
  toasts : s.view.toasts.length = (acts.filterMap (clicked filesDir)).length
  bars : ∀ bar ∈ s.view.progressBars, bar = ⟨.GONE, 0⟩

theorem atRest_of_idle (h : Runs (activity random filesDir) C (launched world) acts s)
    (hidle : Idle s) : AtRest filesDir acts s := by
  have hclicks := clicks_eq h
  rw [hidle.unfinished, List.filter_nil, List.append_nil] at hclicks
  refine ⟨hidle, hclicks.symm, ?_, fun bar hbar => ?_⟩
  · rw [hclicks, (runs_toasts h).shown, List.length_map, List.length_map]
  · have hzero := (runs_sound h).2.progress bar hbar
    obtain ⟨i, hi⟩ := List.mem_iff_getElem?.mp hbar
    obtain ⟨visibility, progress⟩ := bar
    cases visibility with
    | VISIBLE =>
      have hmem := shows_unfinished h i ⟨_, hi, rfl⟩
      rw [hidle.unfinished] at hmem
      exact absurd hmem List.not_mem_nil
    | GONE => exact congrArg (ProgressBar.mk .GONE) hzero

theorem clicked_of_isEvent (h : a.isEvent = false) : clicked filesDir a = none := by
  cases a with
  | event _ => contradiction
  | _ => rfl

/-- The background thread waits for the next line of a response. -/
def AwaitsLine (s : Activity) : Prop :=
  s.alive = true ∧ ∃ post strings i env read,
    s.active = some (.post post strings, ⟨i, .reading env read⟩)

theorem awaitsLine_step {answer : Answer} {line : JString} (hu : answer.uncaught = false)
    (hline : answer.line = .ok (some line)) (hs : AwaitsLine s) :
    ∃ s', step (activity (χ := χ) random filesDir) s (.work answer) = some s' ∧ AwaitsLine s' := by
  obtain ⟨ha, post, strings, i, env, read, ht⟩ := hs
  have hwork : (activity (χ := χ) random filesDir).work (.post post strings)
      ⟨i, .reading env read⟩ s.world answer =
        .continues ⟨0, .reading env (read ++ [line])⟩ s.world := by
    rw [activity_work_post, PostTask.work, hu, if_neg Bool.false_ne_true, PostTask.goes, hline]
    rfl
  exact ⟨_, Step.step_eq (.continued ha ht hwork), ha, post, strings, 0, env, read ++ [line], rfl⟩

theorem awaitsLine_runs {answer : Answer} {line : JString} (hu : answer.uncaught = false)
    (hline : answer.line = .ok (some line)) (m : Nat) (hs : AwaitsLine s) :
    ∃ s', Runs (activity (χ := χ) random filesDir) (fun _ _ => True) s
      (List.replicate m (.work answer)) s' ∧ AwaitsLine s' := by
  induction m generalizing s with
  | zero => exact ⟨s, .nil, hs⟩
  | succ m ih =>
    have hone : ∃ next, step (activity (χ := χ) random filesDir) s (.work answer) = some next ∧
        AwaitsLine next := awaitsLine_step hu hline hs
    obtain ⟨next, hstep, hnext⟩ := hone
    obtain ⟨s', hrun, hs'⟩ := ih hnext
    exact ⟨s', hrun.cons trivial hstep, hs'⟩

/-- The activity comes to rest where each response comes to an end. A response
that goes on sending lines keeps its upload under way for ever. -/
theorem activity_settles (h : Runs (activity random filesDir) C (launched world) acts s) (n : Nat) :
    (∀ rest s', Runs (activity (χ := χ) random filesDir) (Answers (Task.Ends n)) s rest s' →
      (∀ a ∈ rest, a.isEvent = false) →
        rest.length ≤ remaining (activity (χ := χ) random filesDir) (taskCost n) s) ∧
      (∀ answer : Activity → Answer,
        (∀ (s : Activity) (task : Task) (held : Held), s.active = some (task, held) →
          task.Ends n held s.world (answer s)) →
          ∃ rest s', Runs (activity (χ := χ) random filesDir)
              (fun s a => ∀ x, a = .work x → x = answer s) s rest s' ∧
            (∀ a ∈ rest, a.isEvent = false) ∧ (s'.alive = true → AtRest filesDir acts s')) ∧
      ∀ answer : Answer, answer.uncaught = false → (∃ line, answer.line = .ok (some line)) →
        AwaitsLine s → ∀ m, ∃ s', Runs (activity (χ := χ) random filesDir) (fun _ _ => True) s
          (List.replicate m (.work answer)) s' ∧ AwaitsLine s' := by
  refine ⟨fun rest s' hrun hrest => ?_, fun answer hanswer => ?_, ?_⟩
  · have hle := hrun.length_le (activity_lowers n) (fun _ _ ha => ha) hrest
    omega
  · obtain ⟨rest, s', hrun, hrest, -, hidle⟩ := exists_settles (I := fun _ => True)
      (activity_lowers (χ := χ) n) answer (fun s task held _ => hanswer s task held)
      (fun _ _ _ _ hx => hx) (fun _ _ _ _ _ _ _ => trivial) s trivial
    refine ⟨rest, s', hrun, hrest, fun ha => ?_⟩
    have hbefore : Runs (activity random filesDir) (fun _ _ => True) (launched world) acts s :=
      h.mono fun _ _ _ => trivial
    have hall := hbefore.append (hrun.mono fun _ _ _ => trivial)
    have hnone : rest.filterMap (clicked filesDir) = [] :=
      List.filterMap_eq_nil_iff.mpr fun a ha => clicked_of_isEvent (hrest a ha)
    obtain ⟨hid, hreported, htoasts, hbars⟩ := atRest_of_idle hall (hidle ha)
    rw [List.filterMap_append, hnone, List.append_nil] at hreported htoasts
    exact ⟨hid, hreported, htoasts, hbars⟩
  · rintro answer hu ⟨line, hline⟩ hs m
    exact awaitsLine_runs hu hline m hs

theorem activity_settles_uploading :
    (∀ rest s', Runs (activity (χ := Unit) (fun i => i) [47]) (Answers (Task.Ends 3)) uploadingState
        rest s' → (∀ a ∈ rest, a.isEvent = false) →
      rest.length ≤ remaining (activity (χ := Unit) (fun i => i) [47]) (taskCost 3)
        uploadingState) ∧
      (∀ answer : Activity → Answer,
        (∀ (s : Activity) (task : Task) (held : Held), s.active = some (task, held) →
          task.Ends 3 held s.world (answer s)) →
          ∃ rest s', Runs (activity (χ := Unit) (fun i => i) [47])
              (fun s a => ∀ x, a = .work x → x = answer s) uploadingState rest s' ∧
            (∀ a ∈ rest, a.isEvent = false) ∧ (s'.alive = true → AtRest [47] uploadingRun s')) ∧
      ∀ answer : Answer, answer.uncaught = false → (∃ line, answer.line = .ok (some line)) →
        AwaitsLine uploadingState → ∀ m, ∃ s', Runs (activity (χ := Unit) (fun i => i) [47])
          (fun _ _ => True) uploadingState (List.replicate m (.work answer)) s' ∧ AwaitsLine s' :=
  activity_settles (runs_uploading (C := fun _ _ => True) fun _ _ _ _ => trivial) 3

end TaintdroidHack
