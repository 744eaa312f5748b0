import Mathlib.Algebra.BigOperators.Intervals
import Mathlib.Data.List.GetD

/-! Loops that move a counted amount through a channel whose calls may move
less than they are asked for, move nothing, or fail. -/

namespace Transfer

inductive Exit where
  | error
  | stop
  | full
  deriving DecidableEq, Repr

structure Outcome (σ : Type*) where
  exit : Exit
  moved : Int
  state : σ

variable {σ : Type*} {f : Nat → Option Nat} {total : Nat}

/-- `do { n = call; if (n < 0) fail; if (n == 0) break; moved += n; } while (moved < total)`.
A positive result brings `moved` closer to `total`, so no bound on the number
of calls is needed. -/
def loop (call : σ → Int → Int × σ) (total moved : Int) (s : σ) : Outcome σ :=
  let r := call s moved
  if r.1 < 0 then ⟨.error, moved, r.2⟩
  else if r.1 = 0 then ⟨.stop, moved, r.2⟩
  else if moved + r.1 < total then loop call total (moved + r.1) r.2
  else ⟨.full, moved + r.1, r.2⟩
termination_by (total - moved).toNat
decreasing_by
  rename_i hneg hzero hlt
  simp only [r] at hneg hzero hlt
  omega

def amount (f : Nat → Option Nat) (k : Nat) : Nat :=
  ∑ i ∈ Finset.range k, (f i).getD 0

def Progress (f : Nat → Option Nat) (k : Nat) : Prop :=
  ∀ i < k, ∃ n, 0 < n ∧ f i = some n

def Fails (f : Nat → Option Nat) (total : Nat) : Prop :=
  ∃ k, Progress f k ∧ amount f k < total ∧ f k = none

def Stops (f : Nat → Option Nat) (total : Nat) : Prop :=
  ∃ k, Progress f k ∧ amount f k < total ∧ f k = some 0

def Fills (f : Nat → Option Nat) (total : Nat) : Prop :=
  ∃ k, Progress f k ∧ total ≤ amount f k

@[simp] theorem amount_zero (f : Nat → Option Nat) : amount f 0 = 0 := rfl

theorem amount_succ (f : Nat → Option Nat) (k : Nat) :
    amount f (k + 1) = amount f k + (f k).getD 0 := Finset.sum_range_succ _ _

theorem amount_mono (f : Nat → Option Nat) : Monotone (amount f) :=
  monotone_nat_of_le_succ fun k => by rw [amount_succ]; omega

theorem progress_zero (f : Nat → Option Nat) : Progress f 0 := fun _ h => absurd h (by omega)

theorem Progress.succ {k n : Nat} (h : Progress f k) (hn : 0 < n) (hf : f k = some n) :
    Progress f (k + 1) := by
  intro i hi
  rcases Nat.lt_succ_iff_lt_or_eq.mp hi with hlt | rfl
  · exact h i hlt
  · exact ⟨n, hn, hf⟩

theorem Progress.le_of_not_pos {j k : Nat} (h : Progress f k)
    (hj : ∀ n, 0 < n → f j ≠ some n) : k ≤ j := by
  by_contra hlt
  obtain ⟨n, hn, hf⟩ := h j (by omega)
  exact hj n hn hf

theorem Stops.not_fails (h : Stops f total) : ¬ Fails f total := by
  intro hfails
  obtain ⟨j, hj, _, hfj⟩ := hfails
  obtain ⟨k, hk, _, hfk⟩ := h
  have hjk : j ≤ k := hj.le_of_not_pos fun n hn he => by simp [hfk] at he; omega
  have hkj : k ≤ j := hk.le_of_not_pos fun n _ he => by simp [hfj] at he
  have he : j = k := by omega
  subst he
  simp [hfk] at hfj

theorem not_fills_of_no_progress {k : Nat} (hlt : amount f k < total)
    (hk : ∀ n, 0 < n → f k ≠ some n) : ¬ Fills f total := by
  intro hfills
  obtain ⟨j, hj, hle⟩ := hfills
  have hm := amount_mono f (hj.le_of_not_pos hk)
  omega

theorem Stops.not_fills (h : Stops f total) : ¬ Fills f total := by
  obtain ⟨k, _, hlt, hf⟩ := h
  exact not_fills_of_no_progress hlt fun n hn he => by simp [hf] at he; omega

theorem Fails.not_fills (h : Fails f total) : ¬ Fills f total := by
  obtain ⟨k, _, hlt, hf⟩ := h
  exact not_fills_of_no_progress hlt fun n _ he => by simp [hf] at he

theorem amount_eq_sum {ns : List Nat} (hf : ∀ i, f i = some (ns.getD i 0)) (k : Nat) :
    amount f k = (ns.take k).sum := by
  induction k with
  | zero => simp
  | succ k ih =>
    rw [amount_succ, ih, hf, Option.getD_some, List.take_add_one, List.sum_append, List.getD]
    cases ns[k]? <;> simp

theorem progress_length {ns : List Nat} (hpos : ∀ n ∈ ns, 0 < n)
    (hf : ∀ i, f i = some (ns.getD i 0)) : Progress f ns.length := by
  intro i hi
  refine ⟨ns[i], hpos _ (List.getElem_mem hi), ?_⟩
  rw [hf, List.getD_eq_getElem _ _ hi]

theorem stops_iff_sum_lt {ns : List Nat} (hpos : ∀ n ∈ ns, 0 < n)
    (hf : ∀ i, f i = some (ns.getD i 0)) (total : Nat) : Stops f total ↔ ns.sum < total := by
  constructor
  · intro hstops
    obtain ⟨k, -, hlt, hk⟩ := hstops
    have hle : ns.length ≤ k := (progress_length hpos hf).le_of_not_pos fun n hn he => by
      rw [hk] at he
      have := Option.some.inj he
      omega
    rwa [amount_eq_sum hf, List.take_of_length_le hle] at hlt
  · intro hlt
    refine ⟨ns.length, progress_length hpos hf, ?_, ?_⟩
    · rwa [amount_eq_sum hf, List.take_length]
    · rw [hf, List.getD_eq_default _ _ le_rfl]

structure Serves (f : Nat → Option Nat) (total : Nat) (calls : σ → Nat)
    (call : σ → Int → Int × σ) : Prop where
  next : ∀ s (m : Nat), calls (call s m).2 = calls s + 1
  fails : ∀ s (m : Nat), f (calls s) = none → (call s m).1 < 0
  moves : ∀ s (m n : Nat), m < total → f (calls s) = some n →
    (call s m).1 = (min n (total - m) : Nat)

theorem Serves.result_le {calls : σ → Nat} {call : σ → Int → Int × σ}
    (hs : Serves f total calls call) (s : σ) {m : Nat} (hm : m < total) :
    (call s m).1 ≤ (total - m : Nat) := by
  cases hf : f (calls s) with
  | none =>
    have hneg := hs.fails s m hf
    omega
  | some n =>
    rw [hs.moves s m n hm hf]
    omega

theorem Serves.toNat_eq {calls : σ → Nat} {call : σ → Int → Int × σ}
    (hs : Serves f total calls call) (s : σ) {m : Nat} (hm : m < total) :
    (call s m).1.toNat = min ((f (calls s)).getD 0) (total - m) := by
  cases hf : f (calls s) with
  | none =>
    have hneg := hs.fails s m hf
    rw [Int.toNat_of_nonpos hneg.le, Option.getD_none, Nat.zero_min]
  | some n => rw [hs.moves s m n hm hf, Int.toNat_natCast, Option.getD_some]

/-- A call that is asked for something moves nothing only when nothing is offered. -/
theorem Serves.offers_zero {calls : σ → Nat} {call : σ → Int → Int × σ}
    (hs : Serves f total calls call) {s : σ} {m : Nat} (hm : m < total)
    (hzero : (call s m).1 = 0) : f (calls s) = some 0 := by
  cases hf : f (calls s) with
  | none =>
    have hneg := hs.fails s m hf
    omega
  | some n =>
    rw [hs.moves s m n hm hf] at hzero
    have hn : n = 0 := by omega
    rw [hn]

inductive Left (f : Nat → Option Nat) (total : Nat) (calls : σ → Nat)
    (call : σ → Int → Int × σ) (I : Nat → σ → Prop) : Outcome σ → Prop where
  | error {s : σ} (hp : Progress f (calls s)) (hlt : amount f (calls s) < total)
      (hf : f (calls s) = none) (hI : I (amount f (calls s)) s) :
      Left f total calls call I
        ⟨.error, amount f (calls s), (call s (amount f (calls s))).2⟩
  | stop {s : σ} (hp : Progress f (calls s)) (hlt : amount f (calls s) < total)
      (hf : f (calls s) = some 0) (hI : I (amount f (calls s)) s) :
      Left f total calls call I
        ⟨.stop, amount f (calls s), (call s (amount f (calls s))).2⟩
  | full {s : σ} (hf : Fills f total) (hI : I total s) :
      Left f total calls call I ⟨.full, total, s⟩

/-- The loop rule: an invariant kept by every call that moves something holds
when the loop is left, and what the channel offered decides how it is left. -/
theorem Serves.left {calls : σ → Nat} {call : σ → Int → Int × σ} {I : Nat → σ → Prop}
    (hs : Serves f total calls call)
    (hstep : ∀ m s n, I m s → m = amount f (calls s) → m < total → 0 < n →
      f (calls s) = some n → I (m + min n (total - m)) (call s m).2)
    {m : Nat} {s : σ} (hm : m = amount f (calls s)) (hp : Progress f (calls s))
    (hlt : m < total) (hI : I m s) :
    Left f total calls call I (loop call total m s) := by
  induction hd : total - m using Nat.strongRecOn generalizing m s with
  | ind d ih =>
    rw [loop]
    cases hf : f (calls s) with
    | none =>
      subst hm
      simp only [hs.fails s _ hf, if_true]
      exact .error hp hlt hf hI
    | some n =>
      have hr := hs.moves s m n hlt hf
      by_cases hn : n = 0
      · subst hm
        simp only [hr, hn, Nat.zero_min, Int.natCast_zero, lt_self_iff_false, if_false, if_true]
        exact .stop hp hlt (by rw [hf, hn]) hI
      · have hI' := hstep m s n hI hm hlt (by omega) hf
        have hp' := hp.succ (by omega) hf
        have ha : amount f (calls s + 1) = m + n := by
          rw [amount_succ, hf, Option.getD_some, ← hm]
        have hneg : ¬ ((min n (total - m) : Nat) : Int) < 0 := by omega
        have hzero : ¬ ((min n (total - m) : Nat) : Int) = 0 := by omega
        simp only [hr, hneg, hzero, if_false]
        by_cases hmore : n < total - m
        · have hmin : min n (total - m) = n := by omega
          have hcond : (m : Int) + (min n (total - m) : Nat) < total := by omega
          rw [if_pos hcond, ← Int.natCast_add]
          rw [hmin] at hI' ⊢
          exact ih (total - (m + n)) (by omega) (by rw [hs.next, ha])
            (by rw [hs.next]; exact hp') (by omega) hI' rfl
        · have hmin : m + min n (total - m) = total := by omega
          have hcond : ¬ (m : Int) + (min n (total - m) : Nat) < total := by omega
          rw [if_neg hcond, ← Int.natCast_add]
          rw [hmin] at hI' ⊢
          exact .full ⟨calls s + 1, hp', by omega⟩ hI'

def heads (call : σ → Int → Int × σ) (total moved : Int) (s : σ) : List (Int × σ) :=
  let r := call s moved
  if 0 < r.1 ∧ moved + r.1 < total then (moved, s) :: heads call total (moved + r.1) r.2
  else [(moved, s)]
termination_by (total - moved).toNat
decreasing_by
  rename_i hmore
  simp only [r] at hmore
  omega

section heads

variable {call : σ → Int → Int × σ} {bound moved : Int} {s : σ}

theorem heads_of_continues (hpos : 0 < (call s moved).1) (hlt : moved + (call s moved).1 < bound) :
    heads call bound moved s =
      (moved, s) :: heads call bound (moved + (call s moved).1) (call s moved).2 := by
  rw [heads]
  exact if_pos ⟨hpos, hlt⟩

theorem mem_heads_self (call : σ → Int → Int × σ) (bound moved : Int) (s : σ) :
    (moved, s) ∈ heads call bound moved s := by
  rw [heads]
  split_ifs <;> simp

/-- An invariant that every call of the loop keeps, with what it has moved then. -/
def Keeps (call : σ → Int → Int × σ) (bound : Int) (I : Int → σ → Prop) : Prop :=
  ∀ m s, I m s → m < bound → I (m + (call s m).1.toNat) (call s m).2

variable {I : Int → σ → Prop}

theorem Keeps.moves (h : Keeps call bound I) (hlt : moved < bound) (hI : I moved s)
    (hpos : 0 < (call s moved).1) : I (moved + (call s moved).1) (call s moved).2 := by
  have hstep := h moved s hI hlt
  rwa [Int.toNat_of_nonneg hpos.le] at hstep

theorem Keeps.ends (h : Keeps call bound I) (hlt : moved < bound) (hI : I moved s)
    (hend : (call s moved).1 ≤ 0) : I moved (call s moved).2 := by
  have hstep := h moved s hI hlt
  rwa [Int.toNat_of_nonpos hend, Int.natCast_zero, Int.add_zero] at hstep

theorem Keeps.loop (h : Keeps call bound I) (hlt : moved < bound) (hI : I moved s) :
    I (loop call bound moved s).moved (loop call bound moved s).state := by
  induction moved, s using loop.induct call bound with
  | case1 moved s r hneg =>
    rw [Transfer.loop, if_pos hneg]
    exact h.ends hlt hI hneg.le
  | case2 moved s r hneg hzero =>
    rw [Transfer.loop, if_neg hneg, if_pos hzero]
    exact h.ends hlt hI hzero.le
  | case3 moved s r hneg hzero hmore ih =>
    have hpos : 0 < r.1 := by omega
    rw [Transfer.loop, if_neg hneg, if_neg hzero, if_pos hmore]
    exact ih hmore (h.moves hlt hI hpos)
  | case4 moved s r hneg hzero hmore =>
    have hpos : 0 < r.1 := by omega
    rw [Transfer.loop, if_neg hneg, if_neg hzero, if_neg hmore]
    exact h.moves hlt hI hpos

theorem Keeps.heads (h : Keeps call bound I) (hlt : moved < bound) (hI : I moved s) :
    ∀ r ∈ heads call bound moved s, r.1 < bound ∧ I r.1 r.2 := by
  induction moved, s using heads.induct call bound with
  | case1 moved s r hmore ih =>
    intro x hx
    rw [heads_of_continues hmore.1 hmore.2] at hx
    rcases List.mem_cons.mp hx with rfl | hx
    · exact ⟨hlt, hI⟩
    · exact ih hmore.2 (h.moves hlt hI hmore.1) x hx
  | case2 moved s r hmore =>
    intro x hx
    rw [Transfer.heads, if_neg hmore] at hx
    obtain rfl := List.mem_singleton.mp hx
    exact ⟨hlt, hI⟩

variable {ε : Type*} (log : σ → List ε) {event : Int × σ → ε}

theorem log_prefix_loop (hlog : ∀ m s, log (call s m).2 = log s ++ [event (m, s)]) :
    log s <+: log (loop call bound moved s).state := by
  have hcall : ∀ m s, log s <+: log (call s m).2 := fun m s => by
    rw [hlog]
    exact List.prefix_append _ _
  induction moved, s using loop.induct call bound with
  | case1 moved s r hneg =>
    rw [loop, if_pos hneg]
    exact hcall moved s
  | case2 moved s r hneg hzero =>
    rw [loop, if_neg hneg, if_pos hzero]
    exact hcall moved s
  | case3 moved s r hneg hzero hmore ih =>
    rw [loop, if_neg hneg, if_neg hzero, if_pos hmore]
    exact (hcall moved s).trans ih
  | case4 moved s r hneg hzero hmore =>
    rw [loop, if_neg hneg, if_neg hzero, if_neg hmore]
    exact hcall moved s

theorem log_call_cases (hlog : ∀ m s, log (call s m).2 = log s ++ [event (m, s)]) {out : List ε}
    (hout : log (call s moved).2 <+: out) {i : Nat} {e : ε}
    (he : (log (call s moved).2)[i]? = some e) :
    (log s)[i]? = some e ∨
      ∃ h ∈ heads call bound moved s, event h = e ∧ log h.2 = out.take i := by
  rw [hlog] at hout he
  rcases lt_or_ge i (log s).length with hi | hi
  · rw [List.getElem?_append_left hi] at he
    exact .inl he
  · rw [List.getElem?_append_right hi, List.getElem?_singleton] at he
    split_ifs at he with hzero
    have hlen : i = (log s).length := by omega
    obtain ⟨rest, rfl⟩ := hout
    refine .inr ⟨(moved, s), mem_heads_self call bound moved s, Option.some.inj he, ?_⟩
    rw [hlen, List.append_assoc, List.take_left]

/-- Every event that the loop has logged stands for a call, and what was logged
before it is the log of the state in which the call was made. -/
theorem log_loop_cases (hlog : ∀ m s, log (call s m).2 = log s ++ [event (m, s)]) {i : Nat} {e : ε}
    (he : (log (loop call bound moved s).state)[i]? = some e) :
    (log s)[i]? = some e ∨ ∃ h ∈ heads call bound moved s,
      event h = e ∧ log h.2 = (log (loop call bound moved s).state).take i := by
  induction moved, s using loop.induct call bound with
  | case1 moved s r hneg =>
    rw [loop, if_pos hneg] at he ⊢
    exact log_call_cases log hlog (List.prefix_refl _) he
  | case2 moved s r hneg hzero =>
    rw [loop, if_neg hneg, if_pos hzero] at he ⊢
    exact log_call_cases log hlog (List.prefix_refl _) he
  | case3 moved s r hneg hzero hmore ih =>
    have hpos : 0 < r.1 := by omega
    rw [loop, if_neg hneg, if_neg hzero, if_pos hmore] at he ⊢
    rcases ih he with hold | ⟨h, hh, hevent⟩
    · exact log_call_cases log hlog (log_prefix_loop log hlog) hold
    · rw [heads_of_continues hpos hmore]
      exact .inr ⟨h, List.mem_cons_of_mem _ hh, hevent⟩
  | case4 moved s r hneg hzero hmore =>
    rw [loop, if_neg hneg, if_neg hzero, if_neg hmore] at he ⊢
    exact log_call_cases log hlog (List.prefix_refl _) he

theorem mem_log_loop (hlog : ∀ m s, log (call s m).2 = log s ++ [event (m, s)]) {e : ε}
    (he : e ∈ log (loop call bound moved s).state) :
    e ∈ log s ∨ ∃ h ∈ heads call bound moved s, event h = e := by
  obtain ⟨i, hi⟩ := List.mem_iff_getElem?.mp he
  rcases log_loop_cases log hlog hi with hold | ⟨h, hh, hevent, -⟩
  · exact .inl (List.mem_of_getElem? hold)
  · exact .inr ⟨h, hh, hevent⟩

end heads

end Transfer
