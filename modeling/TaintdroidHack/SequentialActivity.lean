import TaintdroidHack.ActivityReports

/-! The sequential program behind the interleavings: uploads and creations of
contacts that each run as a whole, in the order they were asked for. -/

namespace TaintdroidHack

open Framing SerialTasks

variable {χ : Type} {random : Nat → Nat} {filesDir : JString} {s : Activity}
  {acts : List (Action (Input χ) Answer)} {C : Activity → Action (Input χ) Answer → Prop}
  {world w : World} {ok : Conditions}

def Created (random : Nat → Nat) (n : Nat) (d d' : DemoState) : Prop :=
  ∃ applies, d' = (createContact random applies)^[n] d

theorem calls_iterate (random : Nat → Nat) (applies : Nat → Bool) (n : Nat) (d : DemoState) :
    ((createContact random applies)^[n] d).cr.calls = d.cr.calls + n := by
  induction n with
  | zero => rfl
  | succ n ih =>
    rw [Function.iterate_succ_apply']
    show ((createContact random applies)^[n] d).cr.calls + 1 = _
    omega

theorem createContact_congr {applies applies' : Nat → Bool} {d : DemoState}
    (h : applies d.cr.calls = applies' d.cr.calls) :
    createContact random applies d = createContact random applies' d := by
  rw [createContact, createContact, writeContact, writeContact, h]

theorem iterate_createContact_congr {applies applies' : Nat → Bool} {d : DemoState} {n : Nat}
    (h : ∀ i < n, applies (d.cr.calls + i) = applies' (d.cr.calls + i)) :
    (createContact random applies)^[n] d = (createContact random applies')^[n] d := by
  induction n with
  | zero => rfl
  | succ n ih =>
    rw [Function.iterate_succ_apply', Function.iterate_succ_apply',
      ih fun i hi => h i (Nat.lt_succ_of_lt hi)]
    apply createContact_congr
    rw [calls_iterate]
    exact h n (Nat.lt_succ_self n)

theorem Created.refl (random : Nat → Nat) (d : DemoState) : Created random 0 d d :=
  ⟨fun _ => true, rfl⟩

theorem Created.trans {m n : Nat} {d d' d'' : DemoState} (h : Created random m d d')
    (h' : Created random n d' d'') : Created random (m + n) d d'' := by
  obtain ⟨applies, rfl⟩ := h
  obtain ⟨applies', rfl⟩ := h'
  let both : Nat → Bool := fun i => if i < d.cr.calls + m then applies i else applies' i
  have hfirst : (createContact random applies)^[m] d = (createContact random both)^[m] d := by
    apply iterate_createContact_congr
    intro i hi
    have hlt : d.cr.calls + i < d.cr.calls + m := by omega
    simp only [both, if_pos hlt]
  have hsecond : ∀ e : DemoState, e.cr.calls = d.cr.calls + m →
      (createContact random applies')^[n] e = (createContact random both)^[n] e := by
    intro e he
    apply iterate_createContact_congr
    intro i _
    have hge : ¬ e.cr.calls + i < d.cr.calls + m := by omega
    simp only [both, if_neg hge]
  refine ⟨both, ?_⟩
  rw [Nat.add_comm m n, Function.iterate_add_apply, ← hfirst]
  exact hsecond _ (calls_iterate random applies m d)

theorem Created.runDemo {d : DemoState} {runs : Nat}
    (h : Created random (NUM_CONTACTS_TO_CREATE * runs) initialDemo d) :
    ∃ applies, d.cr = TaintdroidHack.runDemo random applies runs := by
  obtain ⟨applies, rfl⟩ := h
  refine ⟨applies, ?_⟩
  rw [Function.iterate_mul]
  rfl

/-- The uploads of `results` and the creations of contacts, each run from its
beginning to its end before the next one begins. -/
inductive Sequential (random : Nat → Nat) (ok : Conditions) (world : World) :
    List (Task × Option TaskResult) → World → Prop where
  | nil : Sequential random ok world [] world
  | post {results : List (Task × Option TaskResult)} {w w' : World} {task : PostTask}
      {strings : List JString} {result : TaskResult} (h : Sequential random ok world results w)
      (hw : WholeUpload ok task strings w result w') :
      Sequential random ok world (results ++ [(.post task strings, some result)]) w'
  | createContacts {results : List (Task × Option TaskResult)} {w : World} {progressBar : Nat}
      {applies : Nat → Bool} (h : Sequential random ok world results w) :
      Sequential random ok world (results ++ [(.createContacts progressBar, none)])
        { w with demo := generateContacts random applies w.demo }

def Task.Meets (ok : Conditions) : Task → Held → World → Answer → Prop
  | .post task strings, held, world, answer => ok.Meets task strings world.fs answer held.stage
  | .createContacts _, _, _, _ => True

def attemptsOf (threw : Bool) (held : Held) : Nat := if threw then held.i + 1 else held.i

/-- The world that the interleaving has led to, against the one that the
finished tasks leave behind when they run one after another. -/
structure Refines (random : Nat → Nat) (ok : Conditions) (world w : World) (s : Activity) :
    Prop where
  sequential : Sequential random ok world s.returned w
  resting : s.active = none → s.world = w
  posting : ∀ task strings held, s.active = some (.post task strings, held) →
    Underway ok task strings w held.stage s.world
  creating : ∀ progressBar held, s.active = some (.createContacts progressBar, held) →
    attemptsOf s.threw held ≤ NUM_CONTACTS_TO_CREATE ∧
      ∃ demo, s.world = { w with demo := demo } ∧
        Created random (attemptsOf s.threw held) w.demo demo

def Conditions.any : Conditions := ⟨fun _ _ _ _ => True, fun _ => True⟩

end TaintdroidHack
