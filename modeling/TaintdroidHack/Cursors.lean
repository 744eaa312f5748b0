import Mathlib.Data.List.Basic
import Mathlib.Data.List.Count

/-! Computations that open and close resources and that an exception may
leave, and loops that move a cursor from row to row. -/

namespace Cursors

variable {κ χ α β ρ σ : Type}

inductive Event (κ : Type) where
  | opened (c : κ)
  | closed (c : κ)
  deriving DecidableEq, Repr

def Event.resource : Event κ → κ
  | .opened c => c
  | .closed c => c

structure Run (κ χ α : Type) where
  log : List (Event κ)
  result : Except χ α

def Run.bind (r : Run κ χ α) (f : α → Run κ χ β) : Run κ χ β :=
  match r.result with
  | .ok a => ⟨r.log ++ (f a).log, (f a).result⟩
  | .error e => ⟨r.log, .error e⟩

instance : Monad (Run κ χ) where
  pure a := ⟨[], .ok a⟩
  bind := Run.bind

def call (r : Except χ α) : Run κ χ α := ⟨[], r⟩

def emit (e : Event κ) : Run κ χ Unit := ⟨[e], .ok ()⟩

/-- The answer of a query, which opens a cursor unless it is null. -/
def obtainCursor (c : κ) : Except χ (Option α) → Run κ χ (Option α)
  | .ok (some a) => ⟨[.opened c], .ok (some a)⟩
  | r => ⟨[], r⟩

/-- `try { r } finally { f }`. -/
def andFinally (r : Run κ χ α) (f : Run κ χ Unit) : Run κ χ α :=
  match f.result with
  | .ok () => ⟨r.log ++ f.log, r.result⟩
  | .error e => ⟨r.log ++ f.log, .error e⟩

/-- `last` is what the move past the last row ends with. -/
structure Cursor (χ ρ : Type) where
  getCount : Except χ Int
  rows : List ρ
  last : Except χ Unit

/-- `while (cursor.moveToNext()) { body }`, with the number of the row. -/
def eachRow (last : Except χ Unit) (body : Nat → ρ → σ → Run κ χ σ) :
    Nat → List ρ → σ → Run κ χ σ
  | _, [], s => call last >>= fun _ => pure s
  | i, row :: rows, s => body i row s >>= eachRow last body (i + 1) rows

def Cursor.scan (cursor : Cursor χ ρ) (body : Nat → ρ → σ → Run κ χ σ) (s : σ) : Run κ χ σ :=
  eachRow cursor.last body 0 cursor.rows s

theorem bind_of_ok {r : Run κ χ α} {a : α} (h : r.result = .ok a) (f : α → Run κ χ β) :
    r >>= f = ⟨r.log ++ (f a).log, (f a).result⟩ := by
  show Run.bind r f = _
  rw [Run.bind, h]

theorem bind_of_error {r : Run κ χ α} {e : χ} (h : r.result = .error e) (f : α → Run κ χ β) :
    r >>= f = ⟨r.log, .error e⟩ := by
  show Run.bind r f = _
  rw [Run.bind, h]

@[simp] theorem call_ok_bind (a : α) (f : α → Run κ χ β) : call (.ok a) >>= f = f a := rfl

@[simp] theorem call_error_bind (e : χ) (f : α → Run κ χ β) :
    call (.error e) >>= f = ⟨[], .error e⟩ := rfl

@[simp] theorem obtainCursor_some_bind (c : κ) (a : α) (f : Option α → Run κ χ β) :
    obtainCursor c (.ok (some a)) >>= f =
      ⟨.opened c :: (f (some a)).log, (f (some a)).result⟩ := rfl

@[simp] theorem obtainCursor_none_bind (c : κ) (f : Option α → Run κ χ β) :
    obtainCursor c (.ok none) >>= f = f none := rfl

@[simp] theorem obtainCursor_error_bind (c : κ) (e : χ) (f : Option α → Run κ χ β) :
    obtainCursor c (.error e) >>= f = ⟨[], .error e⟩ := rfl

theorem not_exists_ok (e : χ) : ¬ ∃ a : α, (Except.error e : Except χ α) = .ok a := by
  intro h
  obtain ⟨_, ha⟩ := h
  contradiction

theorem andFinally_emit (r : Run κ χ α) (e : Event κ) :
    andFinally r (emit e) = ⟨r.log ++ [e], r.result⟩ := rfl

variable {last : Except χ Unit} {body : Nat → ρ → σ → Run κ χ σ}

theorem eachRow_append (body : Nat → ρ → List β → Run κ χ (List β)) (row : α → ρ)
    (text : Nat → α → List β)
    (hbody : ∀ i x s, (body i (row x) s).result = .ok (s ++ text i x)) (i : Nat) (xs : List α)
    (s : List β) :
    (eachRow (.ok ()) body i (xs.map row) s).result =
      .ok (s ++ (xs.zipIdx i).flatMap fun p => text p.2 p.1) := by
  induction xs generalizing i s with
  | nil =>
    rw [List.zipIdx_nil, List.flatMap_nil, List.append_nil]
    rfl
  | cons x xs ih =>
    rw [List.map_cons, eachRow, bind_of_ok (hbody i x s)]
    show (eachRow (.ok ()) body (i + 1) (xs.map row) (s ++ text i x)).result = _
    rw [ih, List.zipIdx_cons, List.flatMap_cons, List.append_assoc]

/-- A loop ends without an exception exactly if no row and not the last move throws. -/
theorem eachRow_ok_iff {Passes : ρ → Prop}
    (hpass : ∀ i row s, (∃ s', (body i row s).result = .ok s') ↔ Passes row) (i : Nat)
    (rows : List ρ) (s : σ) :
    (∃ s', (eachRow last body i rows s).result = .ok s') ↔
      (∀ row ∈ rows, Passes row) ∧ last = .ok () := by
  induction rows generalizing i s with
  | nil =>
    cases last with
    | ok u => exact iff_of_true ⟨s, rfl⟩ ⟨fun row hrow => absurd hrow List.not_mem_nil, rfl⟩
    | error e =>
      refine iff_of_false (not_exists_ok e) fun h => ?_
      have hlast := h.2
      contradiction
  | cons row rows ih =>
    have hrow := hpass i row s
    rw [eachRow, List.forall_mem_cons]
    cases hr : (body i row s).result with
    | ok s' =>
      rw [bind_of_ok hr, and_assoc, ← ih (i + 1) s']
      have hpassed : Passes row := hrow.mp ⟨s', hr⟩
      exact ⟨fun h => ⟨hpassed, h⟩, fun h => h.2⟩
    | error e =>
      rw [hr] at hrow
      rw [bind_of_error hr]
      exact iff_of_false (not_exists_ok e) fun h => not_exists_ok e (hrow.mpr h.1.1)

def ClosedOnce [DecidableEq κ] (log : List (Event κ)) : Prop :=
  ∀ c, Event.opened c ∈ log → log.count (.closed c) = 1

theorem log_eachRow_nil (i : Nat) (s : σ) : (eachRow last body i [] s).log = [] := by
  cases last <;> rfl

theorem eachRow_log_nil (h : ∀ i row s, (body i row s).log = []) (i : Nat) (rows : List ρ)
    (s : σ) : (eachRow last body i rows s).log = [] := by
  induction rows generalizing i s with
  | nil => exact log_eachRow_nil i s
  | cons row rows ih =>
    rw [eachRow]
    cases hr : (body i row s).result with
    | ok s' =>
      rw [bind_of_ok hr, h, List.nil_append]
      exact ih (i + 1) s'
    | error e => rw [bind_of_error hr, h]

theorem eachRow_resource {key : Nat → κ}
    (hown : ∀ i row s, ∀ e ∈ (body i row s).log, e.resource = key i) {i : Nat} {rows : List ρ}
    {s : σ} {e : Event κ} (he : e ∈ (eachRow last body i rows s).log) :
    ∃ j, i ≤ j ∧ e.resource = key j := by
  induction rows generalizing i s with
  | nil =>
    rw [log_eachRow_nil] at he
    exact absurd he List.not_mem_nil
  | cons row rows ih =>
    rw [eachRow] at he
    cases hr : (body i row s).result with
    | ok s' =>
      rw [bind_of_ok hr] at he
      rcases List.mem_append.mp he with he | he
      · exact ⟨i, Nat.le_refl i, hown i row s e he⟩
      · obtain ⟨j, hj, hkey⟩ := ih he
        exact ⟨j, by omega, hkey⟩
    | error x =>
      rw [bind_of_error hr] at he
      exact ⟨i, Nat.le_refl i, hown i row s e he⟩

variable [DecidableEq κ]

theorem closedOnce_nil : ClosedOnce ([] : List (Event κ)) := fun _ h => absurd h List.not_mem_nil

theorem count_closed_eq_zero {log : List (Event κ)} {c : κ} (h : ∀ e ∈ log, e.resource ≠ c) :
    log.count (.closed c) = 0 :=
  List.count_eq_zero_of_not_mem fun hm => h _ hm rfl

theorem closedOnce_append {log log' : List (Event κ)}
    (h : ∀ e ∈ log, ∀ e' ∈ log', e.resource ≠ e'.resource) :
    ClosedOnce (log ++ log') ↔ ClosedOnce log ∧ ClosedOnce log' := by
  have hleft : ∀ c, Event.opened c ∈ log → (log ++ log').count (.closed c) =
      log.count (.closed c) := by
    intro c hc
    have hzero : log'.count (.closed c) = 0 :=
      count_closed_eq_zero fun e' he' => (h _ hc e' he').symm
    rw [List.count_append, hzero, Nat.add_zero]
  have hright : ∀ c, Event.opened c ∈ log' → (log ++ log').count (.closed c) =
      log'.count (.closed c) := by
    intro c hc
    have hzero : log.count (.closed c) = 0 := count_closed_eq_zero fun e he => h e he _ hc
    rw [List.count_append, hzero, Nat.zero_add]
  constructor
  · intro hall
    refine ⟨fun c hc => ?_, fun c hc => ?_⟩
    · rw [← hleft c hc]
      exact hall c (List.mem_append_left _ hc)
    · rw [← hright c hc]
      exact hall c (List.mem_append_right _ hc)
  · intro hboth c hc
    rcases List.mem_append.mp hc with hc | hc
    · rw [hleft c hc]
      exact hboth.1 c hc
    · rw [hright c hc]
      exact hboth.2 c hc

theorem closedOnce_enclosed {log : List (Event κ)} {c : κ} (h : ∀ e ∈ log, e.resource ≠ c) :
    ClosedOnce (.opened c :: (log ++ [.closed c])) ↔ ClosedOnce log := by
  have hcount : ∀ d, (Event.opened c :: (log ++ [.closed c])).count (.closed d) =
      log.count (.closed d) + if c = d then 1 else 0 := by
    intro d
    rw [List.count_cons_of_ne (by simp), List.count_append]
    by_cases hd : c = d
    · simp [hd]
    · simp [hd]
  constructor
  · intro hall d hd
    have hne : c ≠ d := fun he => h _ hd he.symm
    have hone := hall d (List.mem_cons_of_mem _ (List.mem_append_left _ hd))
    rwa [hcount, if_neg hne, Nat.add_zero] at hone
  · intro hlog d hd
    rw [hcount]
    by_cases he : c = d
    · subst he
      rw [count_closed_eq_zero h, if_pos rfl]
    · have hmem : Event.opened d ∈ log := by
        simpa [Ne.symm he] using hd
      rw [hlog d hmem, if_neg he]

/-- Every resource of a loop is closed once exactly if no iteration that is
reached leaves one open. -/
theorem closedOnce_eachRow {key : Nat → κ} (hkey : Function.Injective key)
    (hown : ∀ i row s, ∀ e ∈ (body i row s).log, e.resource = key i)
    {Passes Clean : Nat → ρ → Prop}
    (hpass : ∀ i row s, (∃ s', (body i row s).result = .ok s') ↔ Passes i row)
    (hclean : ∀ i row s, ClosedOnce (body i row s).log ↔ Clean i row) (i : Nat) (rows : List ρ)
    (s : σ) :
    ClosedOnce (eachRow last body i rows s).log ↔
      ∀ k row, rows[k]? = some row →
        (∀ j before, j < k → rows[j]? = some before → Passes (i + j) before) →
        Clean (i + k) row := by
  induction rows generalizing i s with
  | nil =>
    rw [log_eachRow_nil]
    exact iff_of_true closedOnce_nil fun k row hk => by simp at hk
  | cons row rows ih =>
    have hrow := hclean i row s
    rw [eachRow]
    cases hr : (body i row s).result with
    | ok s' =>
      have hpassed : Passes i row := (hpass i row s).mp ⟨s', hr⟩
      have hdisj : ∀ e ∈ (body i row s).log, ∀ e' ∈ (eachRow last body (i + 1) rows s').log,
          e.resource ≠ e'.resource := by
        intro e he e' he' heq
        obtain ⟨j, hj, hkj⟩ := eachRow_resource hown he'
        have hij : i = j := hkey (by rw [← hown i row s e he, heq, hkj])
        omega
      rw [bind_of_ok hr]
      show ClosedOnce ((body i row s).log ++ (eachRow last body (i + 1) rows s').log) ↔ _
      rw [closedOnce_append hdisj, hrow, ih]
      constructor
      · intro h k row' hk hbefore
        cases k with
        | zero =>
          obtain rfl := Option.some.inj hk
          exact h.1
        | succ k =>
          have hstep := h.2 k row' hk fun j before hj hjk => by
            have := hbefore (j + 1) before (by omega) hjk
            rwa [← Nat.add_assoc, Nat.add_right_comm] at this
          rwa [← Nat.add_assoc, Nat.add_right_comm]
      · intro h
        refine ⟨h 0 row rfl fun j _ hj => absurd hj (by omega), fun k row' hk hbefore => ?_⟩
        have hstep := h (k + 1) row' hk fun j before hj hjk => by
          cases j with
          | zero =>
            obtain rfl := Option.some.inj hjk
            exact hpassed
          | succ j =>
            have := hbefore j before (by omega) hjk
            rwa [← Nat.add_assoc, Nat.add_right_comm]
        rwa [← Nat.add_assoc, Nat.add_right_comm] at hstep
    | error e =>
      rw [bind_of_error hr]
      have hstuck : ¬ Passes i row := by
        rw [← hpass i row s, hr]
        exact not_exists_ok e
      constructor
      · intro h k row' hk hbefore
        cases k with
        | zero =>
          obtain rfl := Option.some.inj hk
          exact hrow.mp h
        | succ k => exact absurd (hbefore 0 row (by omega) rfl) hstuck
      · intro h
        exact hrow.mpr (h 0 row rfl fun j _ hj => absurd hj (by omega))

end Cursors
