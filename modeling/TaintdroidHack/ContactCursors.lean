import TaintdroidHack.Contacts

/-! The cursors of `getContactsAsString`: the outer one is closed however the
run ends, an inner one only where all its rows can be read. -/

namespace TaintdroidHack

open Cursors

variable {χ : Type}

def Readable (pquery : Cursor χ (PhoneRow χ)) : Prop :=
  (∀ row ∈ pquery.rows, ∃ number, row.number = .ok number) ∧ pquery.last = .ok ()

structure ContactRow.Reads (row : ContactRow χ) (id name : Option JString) (hasPhoneNumber : Int) :
    Prop where
  id : row.id = .ok id
  displayName : row.displayName = .ok name
  hasPhoneNumber : row.hasPhoneNumber = .ok hasPhoneNumber

/-- The phone query of the row yields a cursor that cannot be read to its end. -/
def ContactRow.Abandons (cr : ContentResolver χ) (i : Nat) (row : ContactRow χ) : Prop :=
  ∃ id name hasPhoneNumber pquery, row.Reads id name hasPhoneNumber ∧ 0 < hasPhoneNumber ∧
    cr.phones i id = .ok (some pquery) ∧ ¬ Readable pquery

def ContactRow.Passes (cr : ContentResolver χ) (i : Nat) (row : ContactRow χ) : Prop :=
  ∃ id name hasPhoneNumber, row.Reads id name hasPhoneNumber ∧
    (0 < hasPhoneNumber → ∃ answer, cr.phones i id = .ok answer ∧
      ∀ pquery, answer = some pquery → Readable pquery)

theorem scan_phones_log (name : Option JString) (pquery : Cursor χ (PhoneRow χ)) (sb : JString) :
    (pquery.scan (appendPhone name) sb).log = [] := by
  apply eachRow_log_nil
  intro i row s
  rw [appendPhone]
  cases row.number <;> rfl

theorem scan_phones_ok_iff (name : Option JString) (pquery : Cursor χ (PhoneRow χ))
    (sb : JString) :
    (∃ sb', (pquery.scan (appendPhone name) sb).result = .ok sb') ↔ Readable pquery := by
  have hpass : ∀ (i : Nat) (row : PhoneRow χ) (s : JString),
      (∃ s', (appendPhone name i row s).result = .ok s') ↔ ∃ number, row.number = .ok number := by
    intro i row s
    rw [appendPhone]
    cases row.number with
    | ok number => exact iff_of_true ⟨_, rfl⟩ ⟨number, rfl⟩
    | error e => exact iff_of_false (not_exists_ok e) (not_exists_ok e)
  exact eachRow_ok_iff hpass 0 pquery.rows sb

inductive ContactExit (cr : ContentResolver χ) (i : Nat) (row : ContactRow χ) (sb : JString) :
    Run CursorId χ JString → Prop where
  | unread {e : χ} (hr : ∀ id name hasPhoneNumber, ¬ row.Reads id name hasPhoneNumber) :
      ContactExit cr i row sb ⟨[], .error e⟩
  | unflagged {id name : Option JString} {hasPhoneNumber : Int}
      (hr : row.Reads id name hasPhoneNumber) (hf : ¬ 0 < hasPhoneNumber) :
      ContactExit cr i row sb ⟨[], .ok sb⟩
  | refused {id name : Option JString} {hasPhoneNumber : Int} {e : χ}
      (hr : row.Reads id name hasPhoneNumber) (hf : 0 < hasPhoneNumber)
      (hp : cr.phones i id = .error e) : ContactExit cr i row sb ⟨[], .error e⟩
  | noCursor {id name : Option JString} {hasPhoneNumber : Int}
      (hr : row.Reads id name hasPhoneNumber) (hf : 0 < hasPhoneNumber)
      (hp : cr.phones i id = .ok none) : ContactExit cr i row sb ⟨[], .ok sb⟩
  | listed {id name : Option JString} {hasPhoneNumber : Int} {pquery : Cursor χ (PhoneRow χ)}
      {sb' : JString} (hr : row.Reads id name hasPhoneNumber) (hf : 0 < hasPhoneNumber)
      (hp : cr.phones i id = .ok (some pquery)) (hread : Readable pquery) :
      ContactExit cr i row sb ⟨[.opened (.pquery i), .closed (.pquery i)], .ok sb'⟩
  | abandoned {id name : Option JString} {hasPhoneNumber : Int} {pquery : Cursor χ (PhoneRow χ)}
      {e : χ} (hr : row.Reads id name hasPhoneNumber) (hf : 0 < hasPhoneNumber)
      (hp : cr.phones i id = .ok (some pquery)) (hread : ¬ Readable pquery) :
      ContactExit cr i row sb ⟨[.opened (.pquery i)], .error e⟩

theorem appendContact_exit (cr : ContentResolver χ) (i : Nat) (row : ContactRow χ) (sb : JString) :
    ContactExit cr i row sb (appendContact cr i row sb) := by
  rw [appendContact]
  cases hid : row.id with
  | error e =>
    refine .unread fun _ _ _ hr => ?_
    have hread := hr.id
    rw [hid] at hread
    contradiction
  | ok id =>
    cases hname : row.displayName with
    | error e =>
      refine .unread fun _ _ _ hr => ?_
      have hread := hr.displayName
      rw [hname] at hread
      contradiction
    | ok name =>
      cases hflag : row.hasPhoneNumber with
      | error e =>
        refine .unread fun _ _ _ hr => ?_
        have hread := hr.hasPhoneNumber
        rw [hflag] at hread
        contradiction
      | ok hasPhoneNumber =>
        have hr : row.Reads id name hasPhoneNumber := ⟨hid, hname, hflag⟩
        simp only [call_ok_bind]
        by_cases hf : 0 < hasPhoneNumber
        · rw [if_pos hf]
          cases hp : cr.phones i id with
          | error e => exact .refused hr hf hp
          | ok answer =>
            cases answer with
            | none => exact .noCursor hr hf hp
            | some pquery =>
              have hlog := scan_phones_log name pquery sb
              have hok := scan_phones_ok_iff name pquery sb
              rw [obtainCursor_some_bind]
              dsimp only
              cases hs : (pquery.scan (appendPhone name) sb).result with
              | ok sb' =>
                rw [bind_of_ok hs, hlog]
                exact .listed hr hf hp (hok.mp ⟨sb', hs⟩)
              | error e =>
                have hbad : ¬ Readable pquery := by
                  rw [← hok, hs]
                  exact not_exists_ok e
                rw [bind_of_error hs, hlog]
                exact .abandoned hr hf hp hbad
        · rw [if_neg hf]
          exact .unflagged hr hf

variable {cr : ContentResolver χ} {i : Nat} {row : ContactRow χ} {sb : JString}
  {run : Run CursorId χ JString} {id name : Option JString} {hasPhoneNumber : Int}

theorem ContactRow.Reads.unique {id' name' : Option JString} {hasPhoneNumber' : Int}
    (h : row.Reads id name hasPhoneNumber) (h' : row.Reads id' name' hasPhoneNumber') :
    id = id' ∧ hasPhoneNumber = hasPhoneNumber' := by
  have hid := h.id.symm.trans h'.id
  have hflag := h.hasPhoneNumber.symm.trans h'.hasPhoneNumber
  exact ⟨Except.ok.inj hid, Except.ok.inj hflag⟩

theorem ContactRow.Reads.passes_iff (h : row.Reads id name hasPhoneNumber)
    (cr : ContentResolver χ) (i : Nat) :
    row.Passes cr i ↔ (0 < hasPhoneNumber → ∃ answer, cr.phones i id = .ok answer ∧
      ∀ pquery, answer = some pquery → Readable pquery) := by
  constructor
  · intro hpass
    obtain ⟨_, _, _, h', hall⟩ := hpass
    obtain ⟨rfl, rfl⟩ := h.unique h'
    exact hall
  · intro hall
    exact ⟨_, _, _, h, hall⟩

theorem ContactRow.Reads.abandons_iff (h : row.Reads id name hasPhoneNumber)
    (cr : ContentResolver χ) (i : Nat) :
    row.Abandons cr i ↔ 0 < hasPhoneNumber ∧
      ∃ pquery, cr.phones i id = .ok (some pquery) ∧ ¬ Readable pquery := by
  constructor
  · intro hleft
    obtain ⟨_, _, _, pquery, h', hf, hp⟩ := hleft
    obtain ⟨rfl, rfl⟩ := h.unique h'
    exact ⟨hf, pquery, hp⟩
  · intro hleft
    obtain ⟨hf, pquery, hp⟩ := hleft
    exact ⟨_, _, _, pquery, h, hf, hp⟩

theorem ContactExit.resource (h : ContactExit cr i row sb run) :
    ∀ e ∈ run.log, e.resource = .pquery i := by
  intro e he
  cases h with
  | listed _ _ _ _ =>
    rcases List.mem_pair.mp he with rfl | rfl
    · rfl
    · rfl
  | abandoned _ _ _ _ =>
    obtain rfl := List.mem_singleton.mp he
    rfl
  | _ => exact absurd he List.not_mem_nil

theorem ContactExit.ok_iff (h : ContactExit cr i row sb run) :
    (∃ sb', run.result = .ok sb') ↔ row.Passes cr i := by
  cases h with
  | unread hr =>
    refine iff_of_false (not_exists_ok _) fun hpass => ?_
    obtain ⟨id, name, hasPhoneNumber, hr', -⟩ := hpass
    exact hr id name hasPhoneNumber hr'
  | unflagged hr hf =>
    rw [hr.passes_iff]
    exact iff_of_true ⟨sb, rfl⟩ fun hf' => absurd hf' hf
  | refused hr hf hp =>
    rw [hr.passes_iff, hp]
    refine iff_of_false (not_exists_ok _) fun hall => ?_
    obtain ⟨answer, he, -⟩ := hall hf
    contradiction
  | noCursor hr hf hp =>
    rw [hr.passes_iff, hp]
    exact iff_of_true ⟨sb, rfl⟩ fun _ => ⟨none, rfl, fun pquery hsome => by contradiction⟩
  | @listed _ _ _ pquery sb' hr hf hp hread =>
    rw [hr.passes_iff, hp]
    refine iff_of_true ⟨sb', rfl⟩ fun _ => ⟨some pquery, rfl, fun c hc => ?_⟩
    obtain rfl := Option.some.inj hc
    exact hread
  | abandoned hr hf hp hread =>
    rw [hr.passes_iff, hp]
    refine iff_of_false (not_exists_ok _) fun hall => ?_
    obtain ⟨answer, he, hreads⟩ := hall hf
    exact hread (hreads _ (Except.ok.inj he).symm)

theorem ContactExit.closedOnce_iff (h : ContactExit cr i row sb run) :
    ClosedOnce run.log ↔ ¬ row.Abandons cr i := by
  cases h with
  | unread hr =>
    refine iff_of_true closedOnce_nil fun hleft => ?_
    obtain ⟨id, name, hasPhoneNumber, _, hr', -⟩ := hleft
    exact hr id name hasPhoneNumber hr'
  | unflagged hr hf =>
    rw [hr.abandons_iff]
    exact iff_of_true closedOnce_nil fun hleft => hf hleft.1
  | refused hr hf hp =>
    rw [hr.abandons_iff, hp]
    refine iff_of_true closedOnce_nil fun hleft => ?_
    obtain ⟨-, pquery, he, -⟩ := hleft
    contradiction
  | noCursor hr hf hp =>
    rw [hr.abandons_iff, hp]
    refine iff_of_true closedOnce_nil fun hleft => ?_
    obtain ⟨-, pquery, he, -⟩ := hleft
    have hsome := Except.ok.inj he
    contradiction
  | listed hr hf hp hread =>
    rw [hr.abandons_iff, hp]
    have hpair : ClosedOnce (.opened (CursorId.pquery i) :: ([] ++ [.closed (.pquery i)])) :=
      (closedOnce_enclosed fun e he => absurd he List.not_mem_nil).mpr closedOnce_nil
    refine iff_of_true hpair fun hleft => ?_
    obtain ⟨-, pquery, he, hbad⟩ := hleft
    obtain rfl := Option.some.inj (Except.ok.inj he)
    exact hbad hread
  | abandoned hr hf hp hread =>
    rw [hr.abandons_iff, hp]
    refine iff_of_false (fun hall => ?_) fun hkept => hkept ⟨hf, _, rfl, hread⟩
    have hone := hall _ List.mem_cons_self
    contradiction

theorem pquery_injective : Function.Injective CursorId.pquery := fun _ _ h => CursorId.pquery.inj h

theorem scan_contacts_closedOnce_iff (cr : ContentResolver χ) (query : Cursor χ (ContactRow χ))
    (sb : JString) :
    ClosedOnce (query.scan (appendContact cr) sb).log ↔
      ∀ k (row : ContactRow χ), query.rows[k]? = some row →
        (∀ j (before : ContactRow χ), j < k → query.rows[j]? = some before →
          before.Passes cr j) → ¬ row.Abandons cr k := by
  rw [Cursor.scan, closedOnce_eachRow pquery_injective
    (fun i row sb => (appendContact_exit cr i row sb).resource)
    (fun i row sb => (appendContact_exit cr i row sb).ok_iff)
    (fun i row sb => (appendContact_exit cr i row sb).closedOnce_iff)]
  simp only [Nat.zero_add]

theorem scan_contacts_resource (cr : ContentResolver χ) (query : Cursor χ (ContactRow χ))
    (sb : JString) : ∀ e ∈ (query.scan (appendContact cr) sb).log, e.resource ≠ .query := by
  intro e he
  obtain ⟨j, -, hj⟩ := eachRow_resource
    (fun i row sb => (appendContact_exit cr i row sb).resource) he
  rw [hj]
  exact CursorId.noConfusion

/-- Each cursor is closed once, unless an exception comes between the opening of
a phone cursor and its `close`. -/
theorem cursors_closed_iff (cr : ContentResolver χ) :
    ClosedOnce (getContactsAsString cr).log ↔
      ∀ query count k (row : ContactRow χ), cr.contacts = .ok (some query) →
        query.getCount = .ok count → 0 < count → query.rows[k]? = some row →
        (∀ j (before : ContactRow χ), j < k → query.rows[j]? = some before →
          before.Passes cr j) → ¬ row.Abandons cr k := by
  have hempty : ClosedOnce (.opened CursorId.query :: ([] ++ [.closed .query])) :=
    (closedOnce_enclosed fun e he => absurd he List.not_mem_nil).mpr closedOnce_nil
  cases hq : cr.contacts with
  | error e =>
    rw [getContactsAsString, hq, obtainCursor_error_bind]
    exact iff_of_true closedOnce_nil fun query _ _ _ he => by contradiction
  | ok answer =>
    cases answer with
    | none =>
      rw [getContactsAsString, hq, obtainCursor_none_bind]
      refine iff_of_true closedOnce_nil fun query _ _ _ he => ?_
      have hsome := Except.ok.inj he
      contradiction
    | some query =>
      cases hc : query.getCount with
      | error e =>
        rw [getContactsAsString, hq, obtainCursor_some_bind]
        simp only [hc, call_error_bind, andFinally_emit]
        refine iff_of_true hempty fun query' _ _ _ he hc' => ?_
        obtain rfl := Option.some.inj (Except.ok.inj he)
        rw [hc] at hc'
        contradiction
      | ok count =>
        rw [getContactsAsString_of_query hq hc]
        by_cases hpos : 0 < count
        · rw [if_pos hpos]
          show ClosedOnce (.opened CursorId.query ::
            ((query.scan (appendContact cr) []).log ++ [.closed .query])) ↔ _
          rw [closedOnce_enclosed (scan_contacts_resource cr query []),
            scan_contacts_closedOnce_iff]
          constructor
          · intro h query' _ k row he _ _
            obtain rfl := Option.some.inj (Except.ok.inj he)
            exact h k row
          · intro h k row
            exact h query count k row rfl hc hpos
        · rw [if_neg hpos]
          refine iff_of_true hempty fun query' count' _ _ he hc' hpos' => ?_
          obtain rfl := Option.some.inj (Except.ok.inj he)
          obtain rfl := Except.ok.inj (hc.symm.trans hc')
          exact absurd hpos' hpos

def brokenRow : ContactRow Unit := ⟨.ok (some [49]), .ok (some [65]), .ok 1⟩

def brokenResolver : ContentResolver Unit where
  contacts := .ok (some ⟨.ok 1, [brokenRow], .ok ()⟩)
  phones _ _ := .ok (some ⟨.ok 1, [⟨.error ()⟩], .ok ()⟩)

theorem broken_cursor_stays_open :
    (getContactsAsString brokenResolver).log =
        [.opened .query, .opened (.pquery 0), .closed .query] ∧
      ¬ ClosedOnce (getContactsAsString brokenResolver).log := by
  have hlog : (getContactsAsString brokenResolver).log =
      [.opened .query, .opened (.pquery 0), .closed .query] := rfl
  refine ⟨hlog, fun hall => ?_⟩
  have hone := hall (.pquery 0)
  rw [hlog] at hone
  exact absurd (hone (by decide)) (by decide)

end TaintdroidHack
