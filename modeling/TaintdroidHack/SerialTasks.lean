import Mathlib.Algebra.GroupWithZero.Nat

/-! A process with a main thread, which takes events and messages one at a
time, and one background thread, which works on the tasks it is handed one
after another. -/

namespace SerialTasks

variable {τ σ ω ε π ρ ι υ : Type}

/-- How one piece of the work on a task ends: with more to do, and perhaps a
message on the way, with the result, or with an exception. -/
inductive Piece (σ ω π ρ : Type) where
  | continues (held : σ) (world : ω)
  | publishes (held : σ) (world : ω) (progress : π)
  | returns (world : ω) (result : ρ)
  | throws (world : ω)

/-- The handlers of the main thread work on the view, and answer `none` where
they throw. The background work on a task falls into pieces. -/
structure Program (τ σ ω ε π ρ ι υ : Type) where
  onEvent : ι → υ → Option (υ × Option τ)
  start : τ → σ
  work : τ → σ → ω → ε → Piece σ ω π ρ
  onProgress : τ → π → υ → Option υ
  onResult : τ → ρ → υ → Option υ

inductive Message (τ π ρ : Type) where
  | progress (task : τ) (value : π)
  | result (task : τ) (value : ρ)
  deriving DecidableEq, Repr

def Message.result? : Message τ π ρ → Option (τ × ρ)
  | .progress _ _ => none
  | .result task value => some (task, value)

def Message.task : Message τ π ρ → τ
  | .progress task _ => task
  | .result task _ => task

/-- `executed`, `returned` and `finished` record the tasks handed over, the
results sent and the results received, `threw` that a piece of work has thrown,
and none of them is read by anything. -/
structure State (τ σ ω π ρ υ : Type) where
  alive : Bool
  view : υ
  messages : List (Message τ π ρ)
  queue : List τ
  active : Option (τ × σ)
  world : ω
  executed : List τ
  returned : List (τ × ρ)
  finished : List (τ × ρ)
  threw : Bool

def initial (view : υ) (world : ω) : State τ σ ω π ρ υ where
  alive := true
  view := view
  messages := []
  queue := []
  active := none
  world := world
  executed := []
  returned := []
  finished := []
  threw := false

inductive Action (ι ε : Type) where
  | event (i : ι)
  | begin
  | work (answer : ε)
  | dispatch
  deriving DecidableEq, Repr

variable (p : Program τ σ ω ε π ρ ι υ)

section

variable (s : State τ σ ω π ρ υ)

def takeEvent (i : ι) : State τ σ ω π ρ υ :=
  match p.onEvent i s.view with
  | none => { s with alive := false }
  | some (view, none) => { s with view := view }
  | some (view, some task) =>
    { s with view := view, queue := s.queue ++ [task], executed := s.executed ++ [task] }

def beginTask : Option (State τ σ ω π ρ υ) :=
  match s.active, s.queue with
  | none, task :: queue => some { s with active := some (task, p.start task), queue := queue }
  | _, _ => none

def workOn (answer : ε) : Option (State τ σ ω π ρ υ) :=
  s.active.map fun (task, held) =>
    match p.work task held s.world answer with
    | .continues held world => { s with active := some (task, held), world := world }
    | .publishes held world progress =>
      { s with active := some (task, held), world := world,
               messages := s.messages ++ [.progress task progress] }
    | .returns world result =>
      { s with active := none, world := world,
               messages := s.messages ++ [.result task result],
               returned := s.returned ++ [(task, result)] }
    | .throws world => { s with world := world, alive := false, threw := true }

def takeMessage : Option (State τ σ ω π ρ υ) :=
  match s.messages with
  | [] => none
  | .progress task progress :: messages =>
    match p.onProgress task progress s.view with
    | none => some { s with alive := false }
    | some view => some { s with view := view, messages := messages }
  | .result task result :: messages =>
    match p.onResult task result s.view with
    | none => some { s with alive := false }
    | some view =>
      some { s with view := view, messages := messages,
                    finished := s.finished ++ [(task, result)] }

def act : Action ι ε → Option (State τ σ ω π ρ υ)
  | .event i => some (takeEvent p s i)
  | .begin => beginTask p s
  | .work answer => workOn p s answer
  | .dispatch => takeMessage p s

def step (a : Action ι ε) : Option (State τ σ ω π ρ υ) := if s.alive then act p s a else none

end

/-- Everything a step can do. -/
inductive Step : State τ σ ω π ρ υ → Action ι ε → State τ σ ω π ρ υ → Prop where
  | refused {s : State τ σ ω π ρ υ} {i : ι} (ha : s.alive = true) (h : p.onEvent i s.view = none) :
      Step s (.event i) { s with alive := false }
  | handled {s : State τ σ ω π ρ υ} {i : ι} {view : υ} (ha : s.alive = true)
      (h : p.onEvent i s.view = some (view, none)) : Step s (.event i) { s with view := view }
  | executed {s : State τ σ ω π ρ υ} {i : ι} {view : υ} {task : τ} (ha : s.alive = true)
      (h : p.onEvent i s.view = some (view, some task)) :
      Step s (.event i) { s with view := view, queue := s.queue ++ [task],
                                 executed := s.executed ++ [task] }
  | began {s : State τ σ ω π ρ υ} {task : τ} {queue : List τ} (ha : s.alive = true) (hn : s.active = none)
      (hq : s.queue = task :: queue) :
      Step s .begin { s with active := some (task, p.start task), queue := queue }
  | continued {s : State τ σ ω π ρ υ} {task : τ} {held held' : σ} {answer : ε} {world : ω}
      (ha : s.alive = true) (ht : s.active = some (task, held))
      (h : p.work task held s.world answer = .continues held' world) :
      Step s (.work answer) { s with active := some (task, held'), world := world }
  | published {s : State τ σ ω π ρ υ} {task : τ} {held held' : σ} {answer : ε} {world : ω} {progress : π}
      (ha : s.alive = true) (ht : s.active = some (task, held))
      (h : p.work task held s.world answer = .publishes held' world progress) :
      Step s (.work answer) { s with active := some (task, held'), world := world,
                                     messages := s.messages ++ [.progress task progress] }
  | returned {s : State τ σ ω π ρ υ} {task : τ} {held : σ} {answer : ε} {world : ω} {result : ρ}
      (ha : s.alive = true) (ht : s.active = some (task, held))
      (h : p.work task held s.world answer = .returns world result) :
      Step s (.work answer) { s with active := none, world := world,
                                     messages := s.messages ++ [.result task result],
                                     returned := s.returned ++ [(task, result)] }
  | threw {s : State τ σ ω π ρ υ} {task : τ} {held : σ} {answer : ε} {world : ω} (ha : s.alive = true)
      (ht : s.active = some (task, held))
      (h : p.work task held s.world answer = .throws world) :
      Step s (.work answer) { s with world := world, alive := false, threw := true }
  | progressed {s : State τ σ ω π ρ υ} {task : τ} {progress : π} {messages : List (Message τ π ρ)} {view : υ}
      (ha : s.alive = true) (hm : s.messages = .progress task progress :: messages)
      (h : p.onProgress task progress s.view = some view) :
      Step s .dispatch { s with view := view, messages := messages }
  | finished {s : State τ σ ω π ρ υ} {task : τ} {result : ρ} {messages : List (Message τ π ρ)} {view : υ}
      (ha : s.alive = true) (hm : s.messages = .result task result :: messages)
      (h : p.onResult task result s.view = some view) :
      Step s .dispatch { s with view := view, messages := messages,
                                finished := s.finished ++ [(task, result)] }
  | progressRefused {s : State τ σ ω π ρ υ} {task : τ} {progress : π} {messages : List (Message τ π ρ)}
      (ha : s.alive = true) (hm : s.messages = .progress task progress :: messages)
      (h : p.onProgress task progress s.view = none) :
      Step s .dispatch { s with alive := false }
  | resultRefused {s : State τ σ ω π ρ υ} {task : τ} {result : ρ} {messages : List (Message τ π ρ)}
      (ha : s.alive = true) (hm : s.messages = .result task result :: messages)
      (h : p.onResult task result s.view = none) :
      Step s .dispatch { s with alive := false }

variable {p} {s s' : State τ σ ω π ρ υ} {a : Action ι ε}

theorem step_cases (h : step p s a = some s') : Step p s a s' := by
  rw [step] at h
  split at h
  · rename_i ha
    cases a with
    | event i =>
      obtain rfl := Option.some.inj h
      show Step p s (.event i) (takeEvent p s i)
      rw [takeEvent]
      split
      · rename_i he
        exact .refused ha he
      · rename_i he
        exact .handled ha he
      · rename_i he
        exact .executed ha he
    | begin =>
      rw [act, beginTask] at h
      split at h
      · rename_i hn hq
        obtain rfl := Option.some.inj h
        exact .began ha hn hq
      · contradiction
    | work answer =>
      obtain ⟨⟨task, held⟩, ht, rfl⟩ := Option.map_eq_some_iff.mp h
      dsimp only
      split
      · rename_i hw
        exact .continued ha ht hw
      · rename_i hw
        exact .published ha ht hw
      · rename_i hw
        exact .returned ha ht hw
      · rename_i hw
        exact .threw ha ht hw
    | dispatch =>
      rw [act, takeMessage] at h
      split at h
      · contradiction
      · rename_i hm
        split at h
        · rename_i hp
          obtain rfl := Option.some.inj h
          exact .progressRefused ha hm hp
        · rename_i hp
          obtain rfl := Option.some.inj h
          exact .progressed ha hm hp
      · rename_i hm
        split at h
        · rename_i hr
          obtain rfl := Option.some.inj h
          exact .resultRefused ha hm hr
        · rename_i hr
          obtain rfl := Option.some.inj h
          exact .finished ha hm hr
  · contradiction

theorem Step.step_eq (h : Step p s a s') : step p s a = some s' := by
  cases h with
  | refused ha h => rw [step, if_pos ha, act, takeEvent, h]
  | handled ha h => rw [step, if_pos ha, act, takeEvent, h]
  | executed ha h => rw [step, if_pos ha, act, takeEvent, h]
  | began ha hn hq =>
    rw [step, if_pos ha, act, beginTask]
    simp only [hn, hq]
  | continued ha ht h =>
    rw [step, if_pos ha, act, workOn, ht, Option.map_some]
    dsimp only
    rw [h]
  | published ha ht h =>
    rw [step, if_pos ha, act, workOn, ht, Option.map_some]
    dsimp only
    rw [h]
  | returned ha ht h =>
    rw [step, if_pos ha, act, workOn, ht, Option.map_some]
    dsimp only
    rw [h]
  | threw ha ht h =>
    rw [step, if_pos ha, act, workOn, ht, Option.map_some]
    dsimp only
    rw [h]
  | progressed ha hm h =>
    rw [step, if_pos ha, act, takeMessage]
    simp only [hm, h]
  | finished ha hm h =>
    rw [step, if_pos ha, act, takeMessage]
    simp only [hm, h]
  | progressRefused ha hm h =>
    rw [step, if_pos ha, act, takeMessage]
    simp only [hm, h]
  | resultRefused ha hm h =>
    rw [step, if_pos ha, act, takeMessage]
    simp only [hm, h]

variable {C : State τ σ ω π ρ υ → Action ι ε → Prop} {s₀ : State τ σ ω π ρ υ}
  {acts : List (Action ι ε)}

/-- `C` says which actions may be taken in which state. -/
inductive Runs (p : Program τ σ ω ε π ρ ι υ) (C : State τ σ ω π ρ υ → Action ι ε → Prop)
    (s₀ : State τ σ ω π ρ υ) : List (Action ι ε) → State τ σ ω π ρ υ → Prop where
  | nil : Runs p C s₀ [] s₀
  | snoc {acts : List (Action ι ε)} {s s' : State τ σ ω π ρ υ} {a : Action ι ε}
      (h : Runs p C s₀ acts s) (ha : C s a) (hs : step p s a = some s') :
      Runs p C s₀ (acts ++ [a]) s'

theorem Runs.keeps {I : List (Action ι ε) → State τ σ ω π ρ υ → Prop} (h0 : I [] s₀)
    (hstep : ∀ acts s a s', I acts s → C s a → Step p s a s' → I (acts ++ [a]) s')
    (h : Runs p C s₀ acts s) : I acts s := by
  induction h with
  | nil => exact h0
  | snoc _ ha hs ih => exact hstep _ _ _ _ ih ha (step_cases hs)

theorem Runs.cons {acts : List (Action ι ε)} {s s' : State τ σ ω π ρ υ} {a : Action ι ε}
    (ha : C s₀ a) (hs : step p s₀ a = some s) (h : Runs p C s acts s') :
    Runs p C s₀ (a :: acts) s' := by
  induction h with
  | nil => exact Runs.snoc .nil ha hs
  | snoc _ ha' hs' ih =>
    rw [← List.cons_append]
    exact ih.snoc ha' hs'

theorem step_event (ha : s.alive = true) (i : ι) :
    step p s (.event i) = some (takeEvent p s i) := if_pos ha

/-- The tasks handed over are, in order, those with a result, the one that is
worked on and those in the queue. The results sent are, in order, those
received and those in the messages. -/
structure Accounts (s : State τ σ ω π ρ υ) : Prop where
  executed : s.executed = s.returned.map Prod.fst ++ (s.active.map Prod.fst).toList ++ s.queue
  returned : s.returned = s.finished ++ s.messages.filterMap Message.result?

theorem accounts_initial (view : υ) (world : ω) :
    Accounts (initial view world : State τ σ ω π ρ υ) := ⟨rfl, rfl⟩

theorem Step.accounts (h : Step p s a s') (hs : Accounts s) : Accounts s' := by
  obtain ⟨hexec, hret⟩ := hs
  cases h with
  | executed _ _ => exact ⟨by simp [hexec], hret⟩
  | began _ hn hq => exact ⟨by simp [hexec, hn, hq], hret⟩
  | continued _ ht _ => exact ⟨by simp [hexec, ht], hret⟩
  | published _ ht _ => exact ⟨by simp [hexec, ht], by simp [hret, Message.result?]⟩
  | returned _ ht _ =>
    refine ⟨by simp [hexec, ht], ?_⟩
    simp only [List.filterMap_append, ← List.append_assoc, ← hret]
    rfl
  | progressed _ hm _ =>
    rw [hm] at hret
    exact ⟨hexec, hret⟩
  | finished _ hm _ =>
    rw [hm] at hret
    exact ⟨hexec, by simpa [Message.result?] using hret⟩
  | _ => exact ⟨hexec, hret⟩

theorem Accounts.active_mem (hs : Accounts s) {task : τ} {held : σ}
    (ht : s.active = some (task, held)) : task ∈ s.executed := by
  rw [hs.executed, ht]
  simp

def unfinished (s : State τ σ ω π ρ υ) : List τ :=
  (s.messages.filterMap Message.result?).map Prod.fst ++ (s.active.map Prod.fst).toList ++ s.queue

theorem Accounts.executed_eq (hs : Accounts s) :
    s.executed = s.finished.map Prod.fst ++ unfinished s := by
  rw [hs.executed, hs.returned, unfinished, List.map_append]
  simp only [List.append_assoc]

theorem Step.mem_unfinished (h : Step p s a s') {task : τ} (ht : task ∈ unfinished s) :
    task ∈ unfinished s' ∨ ∃ result, p.onResult task result s.view = some s'.view := by
  cases h with
  | executed _ _ =>
    left
    show task ∈ _ ++ (s.queue ++ [_])
    rw [← List.append_assoc]
    exact List.mem_append_left _ ht
  | began _ hn hq => exact .inl (by simpa [unfinished, hn, hq] using ht)
  | continued _ ha _ => exact .inl (by simpa [unfinished, ha] using ht)
  | published _ ha _ => exact .inl (by simpa [unfinished, ha, Message.result?] using ht)
  | returned _ ha _ => exact .inl (by simpa [unfinished, ha, Message.result?, or_assoc] using ht)
  | progressed _ hm _ => exact .inl (by simpa [unfinished, hm, Message.result?] using ht)
  | @finished done result _ _ _ hm hr =>
    by_cases heq : task = done
    · exact .inr ⟨result, heq ▸ hr⟩
    · exact .inl (by simpa [unfinished, hm, Message.result?, heq] using ht)
  | _ => exact .inl ht

theorem Runs.mono {C' : State τ σ ω π ρ υ → Action ι ε → Prop} (hC : ∀ s a, C s a → C' s a)
    (h : Runs p C s₀ acts s) : Runs p C' s₀ acts s := by
  induction h with
  | nil => exact .nil
  | snoc _ ha hs ih => exact ih.snoc (hC _ _ ha) hs

theorem Runs.within (h : Runs p C s₀ acts s) : Runs p (fun s a => C s a ∧ a ∈ acts) s₀ acts s := by
  induction h with
  | nil => exact .nil
  | @snoc acts s _ a _ ha hs ih =>
    have hbefore : Runs p (fun s x => C s x ∧ x ∈ acts ++ [a]) s₀ acts s :=
      ih.mono fun _ _ h => ⟨h.1, List.mem_append_left _ h.2⟩
    exact hbefore.snoc ⟨ha, List.mem_append_right _ List.mem_cons_self⟩ hs

theorem Runs.append {acts' : List (Action ι ε)} (h : Runs p C s₀ acts s)
    (h' : Runs p C s acts' s') : Runs p C s₀ (acts ++ acts') s' := by
  induction h' with
  | nil => rwa [List.append_nil]
  | snoc _ ha hs ih => exact List.append_assoc _ _ _ ▸ ih.snoc ha hs

variable {ok : τ → σ → ω → ε → Prop} {w₀ w : ω} {task : τ}

/-- What a task has come to after some of its pieces, with nothing in between. -/
inductive Works (p : Program τ σ ω ε π ρ ι υ) (ok : τ → σ → ω → ε → Prop) (task : τ) (w₀ : ω) :
    σ → ω → Prop where
  | start : Works p ok task w₀ (p.start task) w₀
  | continues {held held' : σ} {world world' : ω} {answer : ε}
      (h : Works p ok task w₀ held world) (ha : ok task held world answer)
      (hw : p.work task held world answer = .continues held' world') :
      Works p ok task w₀ held' world'
  | publishes {held held' : σ} {world world' : ω} {answer : ε} {progress : π}
      (h : Works p ok task w₀ held world) (ha : ok task held world answer)
      (hw : p.work task held world answer = .publishes held' world' progress) :
      Works p ok task w₀ held' world'

/-- The world that tasks leave behind when each is worked on alone, in this order. -/
inductive Serial (p : Program τ σ ω ε π ρ ι υ) (ok : τ → σ → ω → ε → Prop) (w₀ : ω) :
    List (τ × ρ) → ω → Prop where
  | nil : Serial p ok w₀ [] w₀
  | snoc {results : List (τ × ρ)} {w world world' : ω} {task : τ} {held : σ} {answer : ε}
      {result : ρ} (h : Serial p ok w₀ results w) (hw : Works p ok task w held world)
      (ha : ok task held world answer)
      (hr : p.work task held world answer = .returns world' result) :
      Serial p ok w₀ (results ++ [(task, result)]) world'

/-- A task that is worked on has been alone since it began, also where it threw. -/
structure Serialized (p : Program τ σ ω ε π ρ ι υ) (ok : τ → σ → ω → ε → Prop) (w₀ w : ω)
    (s : State τ σ ω π ρ υ) : Prop where
  serial : Serial p ok w₀ s.returned w
  resting : s.active = none → s.world = w ∧ s.threw = false
  working : ∀ task held, s.active = some (task, held) → s.threw = false →
    Works p ok task w held s.world
  thrown : ∀ task held, s.active = some (task, held) → s.threw = true →
    s.alive = false ∧ ∃ world answer, Works p ok task w held world ∧ ok task held world answer ∧
      p.work task held world answer = .throws s.world

def Answers (ok : τ → σ → ω → ε → Prop) (s : State τ σ ω π ρ υ) : Action ι ε → Prop
  | .work answer => ∀ task held, s.active = some (task, held) → ok task held s.world answer
  | _ => True

theorem Serialized.works (h : Serialized p ok w₀ w s) (ha : s.alive = true) {held : σ}
    (ht : s.active = some (task, held)) : s.threw = false ∧ Works p ok task w held s.world := by
  cases hthrew : s.threw with
  | false => exact ⟨rfl, h.working task held ht hthrew⟩
  | true =>
    have hdead := (h.thrown task held ht hthrew).1
    rw [ha] at hdead
    contradiction

theorem Serialized.view {s' : State τ σ ω π ρ υ} (h : Serialized p ok w₀ w s)
    (hret : s'.returned = s.returned) (hact : s'.active = s.active) (hworld : s'.world = s.world)
    (hthrew : s'.threw = s.threw) (halive : s.alive = true) : Serialized p ok w₀ w s' := by
  refine ⟨hret ▸ h.serial, fun hn => ?_, fun task held ht _ => ?_, fun task held ht hthrown => ?_⟩
  · rw [hworld, hthrew]
    exact h.resting (hact ▸ hn)
  · exact hworld ▸ (h.works halive (hact ▸ ht)).2
  · have hfalse := (h.works halive (hact ▸ ht)).1
    rw [← hthrew, hthrown] at hfalse
    contradiction

def Action.isEvent : Action ι ε → Bool
  | .event _ => true
  | _ => false

theorem Step.executed_eq (h : Step p s a s') (hev : a.isEvent = false) :
    s'.executed = s.executed := by
  cases h with
  | executed => contradiction
  | _ => rfl

structure Idle (s : State τ σ ω π ρ υ) : Prop where
  queue : s.queue = []
  active : s.active = none
  messages : s.messages = []

theorem Idle.unfinished (h : Idle s) : unfinished s = [] := by
  rw [SerialTasks.unfinished, h.queue, h.active, h.messages]
  rfl

def activeCost (cost : τ → σ → Nat) : Option (τ × σ) → Nat
  | none => 0
  | some (task, held) => 2 * cost task held + 2

variable (p) in
def remaining (cost : τ → σ → Nat) (s : State τ σ ω π ρ υ) : Nat :=
  if s.alive then
    (s.queue.map fun task => 2 * cost task (p.start task) + 3).sum +
      activeCost cost s.active + s.messages.length
  else 0

variable {cost : τ → σ → Nat}

/-- Where the answers meet `ok`, each piece that does not end the task leaves less to do. -/
def Lowers (p : Program τ σ ω ε π ρ ι υ) (ok : τ → σ → ω → ε → Prop) (cost : τ → σ → Nat) : Prop :=
  ∀ task held world answer held' world', ok task held world answer →
    (p.work task held world answer = .continues held' world' ∨
      ∃ progress, p.work task held world answer = .publishes held' world' progress) →
    cost task held' < cost task held

theorem Step.remaining_lt (hcost : Lowers p ok cost) (h : Step p s a s') (hok : Answers ok s a)
    (hev : a.isEvent = false) : remaining p cost s' < remaining p cost s := by
  cases h with
  | refused => contradiction
  | handled => contradiction
  | executed => contradiction
  | began ha hn hq =>
    simp only [remaining, ha, if_true, hn, hq, activeCost, List.map_cons, List.sum_cons]
    omega
  | continued ha ht hw =>
    have hlt := hcost _ _ _ _ _ _ (hok _ _ ht) (.inl hw)
    simp only [remaining, ha, if_true, ht, activeCost]
    omega
  | published ha ht hw =>
    have hlt := hcost _ _ _ _ _ _ (hok _ _ ht) (.inr ⟨_, hw⟩)
    simp only [remaining, ha, if_true, ht, activeCost, List.length_append, List.length_singleton]
    omega
  | returned ha ht _ =>
    simp only [remaining, ha, if_true, ht, activeCost, List.length_append, List.length_singleton]
    omega
  | threw ha ht _ =>
    simp only [remaining, ha, if_true, ht, activeCost, Bool.false_eq_true, if_false]
    omega
  | progressed ha hm _ => simp [remaining, ha, hm]
  | finished ha hm _ => simp [remaining, ha, hm]
  | progressRefused ha hm _ =>
    simp only [remaining, ha, if_true, hm, List.length_cons, Bool.false_eq_true, if_false]
    omega
  | resultRefused ha hm _ =>
    simp only [remaining, ha, if_true, hm, List.length_cons, Bool.false_eq_true, if_false]
    omega

theorem Runs.length_le (hcost : Lowers p ok cost) (hok : ∀ s a, C s a → Answers ok s a)
    (h : Runs p C s₀ acts s) (hacts : ∀ a ∈ acts, a.isEvent = false) :
    acts.length + remaining p cost s ≤ remaining p cost s₀ := by
  induction h with
  | nil => simp
  | snoc _ ha hs ih =>
    have hprev := ih fun a ha => hacts a (List.mem_append_left _ ha)
    have hlt := (step_cases hs).remaining_lt hcost (hok _ _ ha) (hacts _ (by simp))
    rw [List.length_append, List.length_singleton]
    omega

theorem idle_of_stuck (halive : s.alive = true) (answer : ε) (hbegin : step p s .begin = none)
    (hwork : step p s (.work answer) = none) (hdispatch : step p s .dispatch = none) : Idle s := by
  simp only [step, halive, if_true, act] at hbegin hwork hdispatch
  have hactive : s.active = none := Option.map_eq_none_iff.mp hwork
  refine ⟨?_, hactive, ?_⟩
  · cases hq : s.queue with
    | nil => rfl
    | cons task queue => simp [beginTask, hactive, hq] at hbegin
  · cases hm : s.messages with
    | nil => rfl
    | cons message messages =>
      cases message <;> simp only [takeMessage, hm] at hdispatch <;> split at hdispatch <;>
        contradiction

/-- Answers that meet `ok` let the process do all that has been asked for in at
most `remaining` further actions, unless it ends. `I` is kept on the way. -/
theorem exists_settles {I : State τ σ ω π ρ υ → Prop} (hcost : Lowers p ok cost)
    (answer : State τ σ ω π ρ υ → ε)
    (hanswer : ∀ (s : State τ σ ω π ρ υ) task held, I s → s.active = some (task, held) →
      ok task held s.world (answer s))
    (hC : ∀ s a, I s → a.isEvent = false → (∀ x, a = .work x → x = answer s) → C s a)
    (hI : ∀ s a s', I s → a.isEvent = false → C s a → Step p s a s' → I s')
    (s : State τ σ ω π ρ υ) (hs : I s) :
    ∃ acts s', Runs p C s acts s' ∧ (∀ a ∈ acts, a.isEvent = false) ∧ I s' ∧
      (s'.alive = true → Idle s') := by
  induction hn : remaining p cost s using Nat.strongRecOn generalizing s with
  | _ n ih =>
    have htake : ∀ a s', a.isEvent = false → (∀ x, a = .work x → x = answer s) →
        step p s a = some s' → ∃ acts s', Runs p C s acts s' ∧ (∀ a ∈ acts, a.isEvent = false) ∧
          I s' ∧ (s'.alive = true → Idle s') := by
      intro a s' hev hx hstep
      have hok : Answers ok s a := by
        cases a with
        | work x => exact fun task held ht => hx x rfl ▸ hanswer s task held hs ht
        | _ => trivial
      have ha : C s a := hC s a hs hev hx
      obtain ⟨acts, t, hrun, hacts, ht, hidle⟩ :=
        ih _ (hn ▸ (step_cases hstep).remaining_lt hcost hok hev) s'
          (hI s a s' hs hev ha (step_cases hstep)) rfl
      exact ⟨a :: acts, t, hrun.cons ha hstep, List.forall_mem_cons.mpr ⟨hev, hacts⟩, ht, hidle⟩
    cases hb : step p s (.begin : Action ι ε) with
    | some s' => exact htake _ s' rfl (by simp) hb
    | none =>
      cases hw : step p s (.work (answer s)) with
      | some s' => exact htake _ s' rfl (by simp) hw
      | none =>
        cases hd : step p s (.dispatch : Action ι ε) with
        | some s' => exact htake _ s' rfl (by simp) hd
        | none => exact ⟨[], s, .nil, by simp, hs, fun ha => idle_of_stuck ha _ hb hw hd⟩

end SerialTasks
