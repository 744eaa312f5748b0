import TaintdroidHack.MainActivity

/-! Runs of the activity in any interleaving: each click is uploaded once and
reported once, in order, and the process ends only where a query or a piece
of background work throws. -/

namespace TaintdroidHack

open SerialTasks

variable {χ : Type} {random : Nat → Nat} {filesDir : JString}

variable {s s' : Activity} {a : Action (Input χ) Answer} {acts : List (Action (Input χ) Answer)}
  {C : Activity → Action (Input χ) Answer → Prop} {world : World} {view view' : View}

theorem View.setBar_eq_some {progressBar : Nat} {f : ProgressBar → ProgressBar}
    (h : view.setBar progressBar f = some view') :
    ∃ bar, view.progressBars[progressBar]? = some bar ∧
      view'.progressBars = view.progressBars.set progressBar (f bar) ∧
      view'.toasts = view.toasts := by
  obtain ⟨bar, hbar, rfl⟩ := Option.map_eq_some_iff.mp h
  exact ⟨bar, hbar, rfl, rfl⟩

theorem View.setBar_eq_none {progressBar : Nat} {f : ProgressBar → ProgressBar}
    (h : view.setBar progressBar f = none) : view.progressBars.length ≤ progressBar :=
  List.getElem?_eq_none_iff.mp (Option.map_eq_none_iff.mp h)

inductive Handled (filesDir : JString) (view : View) : Input χ → View → Option Task → Prop where
  | onCreate : Handled filesDir view .onCreate (onCreate view) none
  | onClick {level : SecurityLevel} {cr : ContentResolver χ} {text : JString}
      (h : (getContactsAsString cr).result = .ok text) :
      Handled filesDir view (.onClick level cr) view
        (some (.post (newPostTask filesDir level) [text]))
  | selected {view' : View} (hpos : 0 < view.progressBars.length)
      (h : view.setBar (view.progressBars.length - 1)
        (fun bar => { bar with visibility := .VISIBLE }) = some view') :
      Handled filesDir view .action_create_contacts view'
        (some (.createContacts (view.progressBars.length - 1)))

theorem onEvent_handled {i : Input χ} {task : Option Task}
    (h : (activity random filesDir).onEvent i view = some (view', task)) :
    Handled filesDir view i view' task := by
  cases i with
  | onCreate =>
    obtain ⟨rfl, rfl⟩ := Prod.mk.inj (Option.some.inj h)
    exact .onCreate
  | onClick level cr =>
    obtain ⟨task', ht, he⟩ := Option.map_eq_some_iff.mp h
    obtain ⟨rfl, rfl⟩ := Prod.mk.inj he
    rw [onClick] at ht
    split at ht
    · contradiction
    · rename_i hresult
      obtain rfl := Option.some.inj ht
      exact .onClick hresult
  | action_create_contacts =>
    obtain ⟨⟨v, task'⟩, ht, he⟩ := Option.map_eq_some_iff.mp h
    obtain ⟨w, hw, hwe⟩ := Option.map_eq_some_iff.mp ht
    obtain ⟨rfl, rfl⟩ := Prod.mk.inj hwe
    obtain ⟨rfl, rfl⟩ := Prod.mk.inj he
    obtain ⟨bar, hbar, -⟩ := View.setBar_eq_some hw
    obtain ⟨hlt, -⟩ := List.getElem?_eq_some_iff.mp hbar
    exact .selected (by omega) hw

theorem onEvent_none_iff (hpos : 0 < view.progressBars.length) (i : Input χ) :
    (activity random filesDir).onEvent i view = none ↔
      ∃ level cr e, i = .onClick level cr ∧ (getContactsAsString cr).result = .error e := by
  constructor
  · intro h
    cases i with
    | onCreate => contradiction
    | onClick level cr =>
      have ht := Option.map_eq_none_iff.mp h
      rw [onClick] at ht
      split at ht
      · rename_i e he
        exact ⟨level, cr, e, rfl, he⟩
      · contradiction
    | action_create_contacts =>
      have ht := Option.map_eq_none_iff.mp (Option.map_eq_none_iff.mp h)
      have hle := View.setBar_eq_none ht
      omega
  · rintro ⟨level, cr, e, hi, he⟩
    subst hi
    show Option.map _ (onClick filesDir level cr) = none
    rw [onClick, he]
    rfl

theorem onEvent_onClick (level : SecurityLevel) (state : ProviderState) (view : View) :
    (activity (χ := χ) random filesDir).onEvent (.onClick level state.resolver) view =
      some (view, some (.post (newPostTask filesDir level) [serialize state.rows])) := by
  show Option.map _ (onClick filesDir level state.resolver) = _
  rw [onClick_resolver]
  rfl

variable {task : Task} {held held' : Held} {world' : World} {answer : Answer}

theorem activity_work_post (task : PostTask) (strings : List JString) (held : Held) (world : World)
    (answer : Answer) : (activity (χ := χ) random filesDir).work (.post task strings) held world
      answer = task.work strings held.stage world answer := rfl

theorem activity_work_createContacts (progressBar : Nat) (held : Held) (world : World)
    (answer : Answer) :
    (activity (χ := χ) random filesDir).work (.createContacts progressBar) held world answer =
      CreateContactsTask.work random held.i world answer := rfl

/-- How a piece of a creation can end. -/
inductive CreationPiece (random : Nat → Nat) (i : Nat) (world : World) (answer : Answer) :
    WorkPiece → Prop where
  | inserts (hlt : i < NUM_CONTACTS_TO_CREATE) (hu : answer.uncaught = false) :
      CreationPiece random i world answer (.publishes ⟨i + 1, .begun⟩
        { world with demo := createContact random (fun _ => answer.applies) world.demo } [0])
  | throws (hlt : i < NUM_CONTACTS_TO_CREATE) (hu : answer.uncaught = true) :
      CreationPiece random i world answer
        (.throws { world with demo := createContact random (fun _ => false) world.demo })
  | returns (hge : NUM_CONTACTS_TO_CREATE ≤ i) :
      CreationPiece random i world answer (.returns world none)

theorem creationPiece_work (random : Nat → Nat) (i : Nat) (world : World) (answer : Answer) :
    CreationPiece random i world answer (CreateContactsTask.work random i world answer) := by
  rw [CreateContactsTask.work]
  split
  · rename_i hlt
    split
    · rename_i hu
      exact .throws hlt hu
    · rename_i hu
      have hzero : (i : Int) / NUM_CONTACTS_TO_CREATE = 0 :=
        Int.ediv_eq_zero_of_lt (by omega) (by exact_mod_cast hlt)
      rw [hzero]
      exact .inserts hlt (Bool.eq_false_iff.mpr hu)
  · rename_i hge
    exact .returns (Nat.not_lt.mp hge)

theorem work_continues
    (h : (activity (χ := χ) random filesDir).work task held world answer =
      .continues held' world') :
    ∃ post strings, task = .post post strings ∧
      post.work strings held.stage world answer = .continues held' world' := by
  cases task with
  | post post strings => exact ⟨post, strings, rfl, h⟩
  | createContacts progressBar =>
    have hpiece := creationPiece_work random held.i world answer
    rw [activity_work_createContacts] at h
    rw [h] at hpiece
    contradiction

theorem work_publishes {progress : List Int}
    (h : (activity (χ := χ) random filesDir).work task held world answer =
      .publishes held' world' progress) :
    (∃ progressBar, task = .createContacts progressBar) ∧ held.i < NUM_CONTACTS_TO_CREATE ∧
      held' = ⟨held.i + 1, .begun⟩ ∧ progress = [0] ∧ world' =
        { world with demo := createContact random (fun _ => answer.applies) world.demo } := by
  cases task with
  | post post strings =>
    have hpiece := pieceOf_work post strings held.stage world answer
    rw [activity_work_post] at h
    rw [h] at hpiece
    contradiction
  | createContacts progressBar =>
    have hpiece := creationPiece_work random held.i world answer
    rw [activity_work_createContacts] at h
    rw [h] at hpiece
    cases hpiece with
    | inserts hlt hu => exact ⟨⟨progressBar, rfl⟩, hlt, rfl, rfl, rfl⟩

theorem work_returns {result : Option TaskResult}
    (h : (activity (χ := χ) random filesDir).work task held world answer =
      .returns world' result) :
    (∃ progressBar, task = .createContacts progressBar ∧ NUM_CONTACTS_TO_CREATE ≤ held.i ∧
        world' = world ∧ result = none) ∨
      ∃ post strings r, task = .post post strings ∧ result = some r ∧
        post.work strings held.stage world answer = .returns world' (some r) := by
  cases task with
  | post post strings =>
    have hpiece := pieceOf_work post strings held.stage world answer
    rw [activity_work_post] at h
    rw [h] at hpiece
    cases hpiece with
    | @returns r => exact .inr ⟨post, strings, r, rfl, rfl, h⟩
  | createContacts progressBar =>
    have hpiece := creationPiece_work random held.i world answer
    rw [activity_work_createContacts] at h
    rw [h] at hpiece
    cases hpiece with
    | returns hge => exact .inl ⟨progressBar, rfl, hge, rfl, rfl⟩

def Task.Sound (filesDir : JString) (bars : Nat) : Task → Prop
  | .post task strings => ∃ level text, task = newPostTask filesDir level ∧ strings = [text]
  | .createContacts progressBar => progressBar < bars

theorem Task.Sound.mono {m n : Nat} (h : task.Sound filesDir m) (hle : m ≤ n) :
    task.Sound filesDir n := by
  cases task with
  | post _ _ => exact h
  | createContacts _ => exact Nat.lt_of_lt_of_le h hle

def MessageSound : Message Task (List Int) (Option TaskResult) → Prop
  | .progress task value => (∃ progressBar, task = .createContacts progressBar) ∧ value = [0]
  | .result (.post _ _) value => value.isSome
  | .result (.createContacts _) _ => True

structure Sound (filesDir : JString) (s : Activity) : Prop where
  bars : 0 < s.view.progressBars.length
  tasks : ∀ task ∈ s.executed, task.Sound filesDir s.view.progressBars.length
  messages : ∀ m ∈ s.messages, MessageSound m ∧ m.task ∈ s.executed
  progress : ∀ bar ∈ s.view.progressBars, bar.progress = 0

theorem sound_launched (filesDir : JString) (world : World) : Sound filesDir (launched world) := by
  refine ⟨Nat.one_pos, ?_, ?_, ?_⟩
  · exact fun _ h => absurd h List.not_mem_nil
  · exact fun _ h => absurd h List.not_mem_nil
  · intro bar hbar
    rw [List.mem_singleton.mp hbar]

/-- A handler of the main thread leaves the bars as they are, but for one of them. -/
structure Redraws (view view' : View) : Prop where
  bars : view.progressBars.length ≤ view'.progressBars.length
  progress : (∀ bar ∈ view.progressBars, bar.progress = 0) →
    ∀ bar ∈ view'.progressBars, bar.progress = 0

theorem Redraws.refl (view : View) : Redraws view view := ⟨Nat.le_refl _, id⟩

theorem redraws_setBar {progressBar : Nat} {f : ProgressBar → ProgressBar}
    (hf : ∀ bar, bar.progress = 0 → (f bar).progress = 0)
    (h : view.setBar progressBar f = some view') : Redraws view view' := by
  obtain ⟨bar, hbar, hset, -⟩ := View.setBar_eq_some h
  constructor
  · rw [hset, List.length_set]
  · intro hzero bar' hmem
    rw [hset] at hmem
    rcases List.mem_or_eq_of_mem_set hmem with hmem | heq
    · exact hzero bar' hmem
    · rw [heq]
      exact hf bar (hzero bar (List.mem_of_getElem? hbar))

theorem Handled.redraws {i : Input χ} {task : Option Task}
    (h : Handled filesDir view i view' task) : Redraws view view' := by
  cases h with
  | onCreate =>
    constructor
    · show view.progressBars.length ≤ (view.progressBars ++ [_]).length
      simp
    · intro hzero bar hmem
      rcases List.mem_append.mp hmem with hmem | hmem
      · exact hzero bar hmem
      · rw [List.mem_singleton.mp hmem]
  | onClick _ => exact Redraws.refl view
  | selected _ h =>
    refine redraws_setBar ?_ h
    exact fun _ hb => hb

theorem onProgress_redraws {m : List Int} (hm : MessageSound (.progress task m))
    (h : (activity (χ := χ) random filesDir).onProgress task m view = some view') :
    Redraws view view' := by
  obtain ⟨⟨progressBar, rfl⟩, rfl⟩ := hm
  exact redraws_setBar (fun _ _ => rfl) h

theorem onResult_redraws {result : Option TaskResult}
    (h : (activity (χ := χ) random filesDir).onResult task result view = some view') :
    Redraws view view' := by
  cases task with
  | post _ _ =>
    obtain ⟨_, _, rfl⟩ := Option.map_eq_some_iff.mp h
    exact ⟨Nat.le_refl _, id⟩
  | createContacts _ =>
    refine redraws_setBar ?_ h
    exact fun _ hb => hb

theorem Sound.redrawn (hs : Sound filesDir s) (hv : Redraws s.view s'.view)
    (hexec : s'.executed = s.executed)
    (hmsg : ∀ m ∈ s'.messages, m ∈ s.messages ∨ MessageSound m ∧ m.task ∈ s.executed) :
    Sound filesDir s' := by
  refine ⟨Nat.lt_of_lt_of_le hs.bars hv.bars, fun task hmem => ?_, fun m hmem => ?_,
    hv.progress hs.progress⟩
  · rw [hexec] at hmem
    exact (hs.tasks task hmem).mono hv.bars
  · rw [hexec]
    rcases hmsg m hmem with hmem | hnew
    · exact hs.messages m hmem
    · exact hnew

theorem Step.sound (h : Step (activity random filesDir) s a s') (hacc : Accounts s)
    (hs : Sound filesDir s) : Sound filesDir s' := by
  have hkept : ∀ m ∈ s.messages, m ∈ s.messages ∨ MessageSound m ∧ m.task ∈ s.executed :=
    fun _ hm => .inl hm
  cases h with
  | refused _ _ => exact hs.redrawn (Redraws.refl _) rfl hkept
  | handled _ he => exact hs.redrawn (onEvent_handled he).redraws rfl hkept
  | executed _ he =>
    have hview := (onEvent_handled he).redraws
    refine ⟨Nat.lt_of_lt_of_le hs.bars hview.bars, fun task hmem => ?_, fun m hmem => ?_,
      hview.progress hs.progress⟩
    · rcases List.mem_append.mp hmem with hmem | hmem
      · exact (hs.tasks task hmem).mono hview.bars
      · obtain rfl := List.mem_singleton.mp hmem
        cases onEvent_handled he with
        | onClick _ => exact ⟨_, _, rfl, rfl⟩
        | selected hpos _ =>
          have hle := hview.bars
          show s.view.progressBars.length - 1 < _
          dsimp only
          omega
    · obtain ⟨hsound, hmem⟩ := hs.messages m hmem
      exact ⟨hsound, List.mem_append_left _ hmem⟩
  | began _ _ _ => exact hs.redrawn (Redraws.refl _) rfl hkept
  | continued _ _ _ => exact hs.redrawn (Redraws.refl _) rfl hkept
  | published _ ht hw =>
    obtain ⟨hbar, -, -, hzero, -⟩ := work_publishes hw
    refine hs.redrawn (Redraws.refl _) rfl fun m hmem => ?_
    rcases List.mem_append.mp hmem with hmem | hmem
    · exact .inl hmem
    · rw [List.mem_singleton.mp hmem]
      exact .inr ⟨⟨hbar, hzero⟩, hacc.active_mem ht⟩
  | returned _ ht hw =>
    refine hs.redrawn (Redraws.refl _) rfl fun m hmem => ?_
    rcases List.mem_append.mp hmem with hmem | hmem
    · exact .inl hmem
    · rw [List.mem_singleton.mp hmem]
      refine .inr ⟨?_, hacc.active_mem ht⟩
      rcases work_returns hw with ⟨_, rfl, -⟩ | ⟨_, _, r, rfl, rfl, -⟩
      · trivial
      · rfl
  | threw _ _ _ => exact hs.redrawn (Redraws.refl _) rfl hkept
  | progressed _ hm hp =>
    obtain ⟨hsound, -⟩ := hs.messages _ (hm ▸ List.mem_cons_self)
    refine hs.redrawn (onProgress_redraws hsound hp) rfl fun m hmem => ?_
    exact .inl (hm ▸ List.mem_cons_of_mem _ hmem)
  | finished _ hm hr =>
    refine hs.redrawn (onResult_redraws hr) rfl fun m hmem => ?_
    exact .inl (hm ▸ List.mem_cons_of_mem _ hmem)
  | progressRefused _ _ _ => exact hs.redrawn (Redraws.refl _) rfl hkept
  | resultRefused _ _ _ => exact hs.redrawn (Redraws.refl _) rfl hkept

theorem accounts_launched (world : World) : Accounts (launched world) := accounts_initial _ _

theorem runs_sound (h : Runs (activity random filesDir) C (launched world) acts s) :
    Accounts s ∧ Sound filesDir s := by
  refine h.keeps (I := fun _ s => Accounts s ∧ Sound filesDir s) ?_ ?_
  · exact ⟨accounts_launched world, sound_launched filesDir world⟩
  · intro _ _ _ _ ⟨hacc, hs⟩ _ hstep
    exact ⟨hstep.accounts hacc, Step.sound hstep hacc hs⟩

theorem throws_creation_iff (random : Nat → Nat) (i : Nat) (world : World) (answer : Answer) :
    Throws (CreateContactsTask.work random i world answer) ↔
      i < NUM_CONTACTS_TO_CREATE ∧ answer.uncaught = true := by
  have hpiece := creationPiece_work random i world answer
  generalize CreateContactsTask.work random i world answer = piece at hpiece
  cases hpiece with
  | inserts _ hu => exact iff_of_false id (by simp [hu])
  | throws hlt hu => exact iff_of_true trivial ⟨hlt, hu⟩
  | returns hge => exact iff_of_false id fun h => Nat.not_lt.mpr hge h.1

/-- What ends the process. -/
def Kills (filesDir : JString) (s : Activity) : Action (Input χ) Answer → Prop
  | .event i => ∃ level cr e, i = .onClick level cr ∧ (getContactsAsString cr).result = .error e
  | .work answer =>
    (∃ progressBar held, s.active = some (.createContacts progressBar, held) ∧
      held.i < NUM_CONTACTS_TO_CREATE ∧ answer.uncaught = true) ∨
    ∃ level text held, s.active = some (.post (newPostTask filesDir level) [text], held) ∧
      (answer.uncaught = true ∨
        (newPostTask filesDir level).DiesAt [text] answer.env s.world.fs held.stage)
  | _ => False

theorem kills_work_iff {bars : Nat} (ht : s.active = some (task, held))
    (hsound : task.Sound filesDir bars) : Kills (χ := χ) filesDir s (.work answer) ↔
      Throws ((activity (χ := χ) random filesDir).work task held s.world answer) := by
  rw [Kills, ht]
  cases task with
  | post post strings =>
    obtain ⟨level, text, rfl, rfl⟩ := hsound
    rw [activity_work_post, throws_newPostTask_iff]
    constructor
    · rintro (⟨_, _, he, -⟩ | ⟨level', text', held', he, hdies⟩)
      · simp at he
      · obtain ⟨htask, rfl⟩ := Prod.mk.inj (Option.some.inj he)
        obtain ⟨hpost, hstrings⟩ := Task.post.inj htask
        rw [hpost, hstrings]
        exact hdies
    · intro hdies
      exact .inr ⟨level, text, held, rfl, hdies⟩
  | createContacts progressBar =>
    rw [activity_work_createContacts, throws_creation_iff]
    constructor
    · rintro (⟨_, _, he, hthrows⟩ | ⟨_, _, _, he, -⟩)
      · obtain ⟨-, rfl⟩ := Prod.mk.inj (Option.some.inj he)
        exact hthrows
      · simp at he
    · intro hthrows
      exact .inl ⟨progressBar, held, rfl, hthrows⟩

theorem Sound.onProgress_ne_none (hs : Sound filesDir s) {value : List Int}
    (hm : Message.progress task value ∈ s.messages) :
    (activity (χ := χ) random filesDir).onProgress task value s.view ≠ none := by
  obtain ⟨⟨⟨progressBar, rfl⟩, rfl⟩, hmem⟩ := hs.messages _ hm
  have hlt : progressBar < s.view.progressBars.length := hs.tasks _ hmem
  intro hn
  have hle := View.setBar_eq_none hn
  omega

theorem Sound.onResult_ne_none (hs : Sound filesDir s) {value : Option TaskResult}
    (hm : Message.result task value ∈ s.messages) :
    (activity (χ := χ) random filesDir).onResult task value s.view ≠ none := by
  obtain ⟨hvalue, hmem⟩ := hs.messages _ hm
  intro hn
  cases task with
  | post _ _ =>
    rw [MessageSound, Option.map_eq_none_iff.mp hn] at hvalue
    contradiction
  | createContacts progressBar =>
    have hlt : progressBar < s.view.progressBars.length := hs.tasks _ hmem
    have hle := View.setBar_eq_none hn
    omega

theorem step_dies_iff (hacc : Accounts s) (hsound : Sound filesDir s)
    (hs : step (activity random filesDir) s a = some s') :
    s'.alive = false ↔ Kills filesDir s a := by
  have hlive : ∀ {t : Activity}, t.alive = true → ¬ Kills filesDir s a →
      (t.alive = false ↔ Kills filesDir s a) := fun ht hk => iff_of_false (by simp [ht]) hk
  have hwork : ∀ {task held answer piece}, s.active = some (task, held) →
      (activity (χ := χ) random filesDir).work task held s.world answer = piece →
        (Kills filesDir s (.work answer : Action (Input χ) Answer) ↔ Throws piece) :=
    fun ht hw => hw ▸ kills_work_iff ht (hsound.tasks _ (hacc.active_mem ht))
  cases step_cases hs with
  | refused _ he => exact iff_of_true rfl ((onEvent_none_iff hsound.bars _).mp he)
  | handled ha he =>
    refine hlive ha fun hk => ?_
    rw [(onEvent_none_iff hsound.bars _).mpr hk] at he
    contradiction
  | executed ha he =>
    refine hlive ha fun hk => ?_
    rw [(onEvent_none_iff hsound.bars _).mpr hk] at he
    contradiction
  | began ha _ _ => exact hlive ha id
  | continued ha ht hw => exact hlive ha (hwork ht hw).mp
  | published ha ht hw => exact hlive ha (hwork ht hw).mp
  | returned ha ht hw => exact hlive ha (hwork ht hw).mp
  | threw _ ht hw => exact iff_of_true rfl ((hwork ht hw).mpr trivial)
  | progressed ha _ _ => exact hlive ha id
  | finished ha _ _ => exact hlive ha id
  | progressRefused _ hm hn => exact absurd hn (hsound.onProgress_ne_none (hm ▸ List.mem_cons_self))
  | resultRefused _ hm hn => exact absurd hn (hsound.onResult_ne_none (hm ▸ List.mem_cons_self))

/-- A step ends the process exactly where a query of a click or a piece of the
background work throws; the handlers of the messages never do. -/
theorem process_dies_iff (h : Runs (activity random filesDir) C (launched world) acts s)
    (hs : step (activity random filesDir) s a = some s') :
    s'.alive = false ↔ Kills filesDir s a := by
  obtain ⟨hacc, hsound⟩ := runs_sound h
  exact step_dies_iff hacc hsound hs

def oneRow : List Row := [(some [65], some [49])]

def bothRows : List Row := [(some [65], some [49]), (some [66], some [50])]

def bookWorld : World :=
  ⟨fun _ => none, ⟨0, ⟨0, [contentProviderOperations [65] [49],
    contentProviderOperations [66] [50]]⟩⟩, []⟩

def askedText (rows : List Row) : JString := serialize (listing rows).rows

def askedOn (level : SecurityLevel) (rows : List Row) : Task :=
  .post (newPostTask [47] level) [askedText rows]

def clickOn (level : SecurityLevel) (rows : List Row) : Action (Input Unit) Answer :=
  .event (.onClick level (listing rows).resolver)

def succeeding : Answer := ⟨succeedingEnv, .ok none, true, false⟩

section

variable (level : SecurityLevel) (task : PostTask) (strings : List JString) (text : JString)
  (world : World)

theorem onEvent_clickOn (rows : List Row) (view : View) :
    (activity (χ := Unit) (fun i => i) [47]).onEvent (.onClick level (listing rows).resolver) view =
      some (view, some (askedOn level rows)) := onEvent_onClick level (listing rows) view

theorem work_askedOn {level : SecurityLevel} {rows : List Row} {stage : Stage} {world : World}
    {piece : WorkPiece}
    (h : (newPostTask [47] level).work [askedText rows] stage world succeeding = piece) :
    (activity (χ := Unit) (fun i => i) [47]).work (askedOn level rows) ⟨0, stage⟩ world succeeding =
      piece := h

theorem work_begun_filesystem :
    (newPostTask [47] .OBFUSCATED_NATIVE_FILESYSTEM).work [text] .begun world succeeding =
      .continues ⟨0, .written succeedingEnv [47]⟩
        { world with fs := (writeToFile .ok world.fs (content [text]) [47]).fs } := rfl

theorem work_begun_regular : (newPostTask [47] .REGULAR).work strings .begun world succeeding =
    .continues ⟨0, .bytes succeedingEnv (Utf.encodeUtf8 (content strings))⟩ world := rfl

theorem work_written {fs : FileSystem} :
    task.work strings (.written succeedingEnv [47])
        { world with fs := (writeToFile .ok fs text [47]).fs } succeeding =
      .continues ⟨0, .bytes succeedingEnv (Utf.encodeUtf8 text)⟩
        { world with fs := (writeToFile .ok fs text [47]).fs } := by
  have hback : BringsBack succeedingEnv (fs (contactsPath [47])) (getStringUTFChars text) :=
    .inl ⟨.inl ⟨rfl, rfl⟩, rfl, rfl⟩
  have hread : (readFromFile succeedingEnv.inp (writeToFile .ok fs text [47]).fs [47]).returned =
      some text := hback.readFromFile
  rw [PostTask.work, if_neg (by decide), PostTask.goes, hread]
  rfl

theorem work_bytes (body : Bytes) :
    task.work strings (.bytes succeedingEnv body) world succeeding =
      .continues ⟨0, .sent succeedingEnv⟩ { world with bodies := world.bodies ++ [body] } := rfl

theorem work_sent : task.work strings (.sent succeedingEnv) world succeeding =
    .continues ⟨0, .reading succeedingEnv []⟩ world := rfl

theorem work_reading (read : List JString) :
    task.work strings (.reading succeedingEnv read) world succeeding =
      .returns world (some .success) := rfl

end

def storedWorld : World :=
  { bookWorld with fs := (writeToFile .ok bookWorld.fs (content [askedText oneRow]) [47]).fs }

def sentBody (rows : List Row) : Bytes := Utf.encodeUtf8 (content [askedText rows])

def uploadingRun : List (Action (Input Unit) Answer) :=
  [clickOn .OBFUSCATED_NATIVE_FILESYSTEM oneRow, clickOn .REGULAR bothRows,
    .event .action_create_contacts, .begin, .work succeeding, .work succeeding, .work succeeding,
    .work succeeding, .work succeeding, .dispatch, .begin, .work succeeding, .work succeeding,
    .work succeeding]

/-- One upload has been reported, the next waits for its response, and a creation is queued. -/
def uploadingState : Activity where
  alive := true
  view := ⟨[⟨.VISIBLE, 0⟩], [some "Successfully sent data"]⟩
  messages := []
  queue := [.createContacts 0]
  active := some (askedOn .REGULAR bothRows, ⟨0, .reading succeedingEnv []⟩)
  world := { storedWorld with bodies := [sentBody oneRow, sentBody bothRows] }
  executed := [askedOn .OBFUSCATED_NATIVE_FILESYSTEM oneRow, askedOn .REGULAR bothRows,
    .createContacts 0]
  returned := [(askedOn .OBFUSCATED_NATIVE_FILESYSTEM oneRow, some .success)]
  finished := [(askedOn .OBFUSCATED_NATIVE_FILESYSTEM oneRow, some .success)]
  threw := false

theorem runs_uploading {C : Activity → Action (Input Unit) Answer → Prop}
    (hC : ∀ s, s.world.demo = bookWorld.demo → ∀ a ∈ uploadingRun, C s a) :
    Runs (activity (fun i => i) [47]) C (launched bookWorld) uploadingRun uploadingState := by
  have hrun : Runs (activity (fun i => i) [47]) (fun s _ => s.world.demo = bookWorld.demo)
      (launched bookWorld) uploadingRun uploadingState := by
    refine Runs.cons rfl (Step.step_eq (.executed rfl (onEvent_clickOn _ _ _))) ?_
    refine Runs.cons rfl (Step.step_eq (.executed rfl (onEvent_clickOn _ _ _))) ?_
    refine Runs.cons rfl (Step.step_eq (.executed rfl rfl)) ?_
    refine Runs.cons rfl (Step.step_eq (.began rfl rfl rfl)) ?_
    refine Runs.cons rfl (Step.step_eq (.continued rfl rfl (work_askedOn (work_begun_filesystem _ _)))) ?_
    refine Runs.cons rfl (Step.step_eq (.continued rfl rfl (work_askedOn (work_written _ _ _ _)))) ?_
    refine Runs.cons rfl (Step.step_eq (.continued rfl rfl (work_askedOn (work_bytes _ _ _ _)))) ?_
    refine Runs.cons rfl (Step.step_eq (.continued rfl rfl (work_askedOn (work_sent _ _ _)))) ?_
    refine Runs.cons rfl (Step.step_eq (.returned rfl rfl (work_askedOn (work_reading _ _ _ _)))) ?_
    refine Runs.cons rfl (Step.step_eq (.finished rfl rfl rfl)) ?_
    refine Runs.cons rfl (Step.step_eq (.began rfl rfl rfl)) ?_
    refine Runs.cons rfl (Step.step_eq (.continued rfl rfl (work_askedOn (work_begun_regular _ _)))) ?_
    refine Runs.cons rfl (Step.step_eq (.continued rfl rfl (work_askedOn (work_bytes _ _ _ _)))) ?_
    exact Runs.cons rfl (Step.step_eq (.continued rfl rfl (work_askedOn (work_sent _ _ _)))) .nil
  exact hrun.within.mono fun s a h => hC s h.1 a h.2

def creatingRun : List (Action (Input Unit) Answer) :=
  uploadingRun ++ [.work succeeding, .dispatch, .begin, .work succeeding]

/-- Both uploads have been reported, and the first contact has been inserted. -/
def creatingState : Activity where
  alive := true
  view := ⟨[⟨.VISIBLE, 0⟩], [some "Successfully sent data", some "Successfully sent data"]⟩
  messages := [.progress (.createContacts 0) [0]]
  queue := []
  active := some (.createContacts 0, ⟨1, .begun⟩)
  world :=
    { uploadingState.world with
      demo := createContact (fun i => i) (fun _ => true) bookWorld.demo }
  executed := uploadingState.executed
  returned := [(askedOn .OBFUSCATED_NATIVE_FILESYSTEM oneRow, some .success),
    (askedOn .REGULAR bothRows, some .success)]
  finished := [(askedOn .OBFUSCATED_NATIVE_FILESYSTEM oneRow, some .success),
    (askedOn .REGULAR bothRows, some .success)]
  threw := false

theorem runs_creating :
    Runs (activity (fun i => i) [47]) (fun _ _ => True) (launched bookWorld) creatingRun
      creatingState := by
  refine (runs_uploading fun _ _ _ _ => trivial).append ?_
  refine Runs.cons trivial
    (Step.step_eq (.returned rfl rfl (work_askedOn (work_reading _ _ _ _)))) ?_
  refine Runs.cons trivial (Step.step_eq (.finished rfl rfl rfl)) ?_
  refine Runs.cons trivial (Step.step_eq (.began rfl rfl rfl)) ?_
  exact Runs.cons trivial (Step.step_eq (.published rfl rfl rfl)) .nil

theorem process_dies_iff_refused :
    (takeEvent (activity (fun i => i) [47]) creatingState
        (.onClick .REGULAR ⟨.error (), fun _ _ => .ok none⟩)).alive = false ↔
      Kills [47] creatingState (.event (.onClick .REGULAR ⟨.error (), fun _ _ => .ok none⟩)) :=
  process_dies_iff runs_creating (step_event rfl _)

end TaintdroidHack
