import TaintdroidHack.Cursors
import TaintdroidHack.JavaPost

/-! `ContactsUtil.getContactsAsString`: two nested cursors over the address
book, and the text that their rows are printed as. -/

namespace TaintdroidHack

open Cursors

variable {χ : Type}

structure PhoneRow (χ : Type) where
  number : Except χ (Option JString)

structure ContactRow (χ : Type) where
  id : Except χ (Option JString)
  displayName : Except χ (Option JString)
  hasPhoneNumber : Except χ Int

/-- `phones i id` answers the query for the numbers of contact `id` that is made
while the outer cursor is on its row `i`. -/
structure ContentResolver (χ : Type) where
  contacts : Except χ (Option (Cursor χ (ContactRow χ)))
  phones : Nat → Option JString → Except χ (Option (Cursor χ (PhoneRow χ)))

inductive CursorId where
  | query
  | pquery (i : Nat)
  deriving DecidableEq, Repr

-- `StringBuilder.append` of a null string.
def shown : Option JString → JString
  | none => jstring "null"
  | some s => s

def entry (name phoneNo : Option JString) : JString :=
  jstring "Name: " ++ shown name ++ jstring "\n" ++
    jstring "Phone Number: " ++ shown phoneNo ++ jstring "\n"

def appendPhone (name : Option JString) (_ : Nat) (row : PhoneRow χ) (sb : JString) :
    Run CursorId χ JString := do
  let phoneNo ← call row.number
  return sb ++ entry name phoneNo

def appendContact (cr : ContentResolver χ) (i : Nat) (row : ContactRow χ) (sb : JString) :
    Run CursorId χ JString := do
  let id ← call row.id
  let name ← call row.displayName
  let hasPhoneNumber ← call row.hasPhoneNumber
  if 0 < hasPhoneNumber then
    let pquery ← obtainCursor (.pquery i) (cr.phones i id)
    match pquery with
    | none => return sb
    | some pquery =>
      let sb ← pquery.scan (appendPhone name) sb
      emit (.closed (.pquery i))
      return sb
  else return sb

def getContactsAsString (cr : ContentResolver χ) : Run CursorId χ JString := do
  let query ← obtainCursor .query cr.contacts
  match query with
  -- the count of a null cursor is 0, and there is nothing to close
  | none => return []
  | some query =>
    andFinally
      (do
        let count ← call query.getCount
        if 0 < count then query.scan (appendContact cr) [] else return [])
      (emit (.closed .query))

structure Contact where
  id : Option JString
  name : Option JString
  hasPhoneNumber : Int

/-- `none` stands for a null cursor. The phone rows may also depend on when
they are asked for. -/
structure ProviderState where
  contacts : Option (List Contact)
  phones : Nat → Option JString → Option (List (Option JString))

def Contact.row (contact : Contact) : ContactRow χ :=
  ⟨.ok contact.id, .ok contact.name, .ok contact.hasPhoneNumber⟩

def phoneRow (number : Option JString) : PhoneRow χ := ⟨.ok number⟩

def ProviderState.resolver (state : ProviderState) : ContentResolver χ where
  contacts := .ok (state.contacts.map fun contacts =>
    ⟨.ok contacts.length, contacts.map Contact.row, .ok ()⟩)
  phones i id := .ok ((state.phones i id).map fun numbers =>
    ⟨.ok numbers.length, numbers.map phoneRow, .ok ()⟩)

def ProviderState.contactRows (state : ProviderState) (i : Nat) (contact : Contact) :
    List (Option JString × Option JString) :=
  if 0 < contact.hasPhoneNumber then
    ((state.phones i contact.id).getD []).map fun number => (contact.name, number)
  else []

def ProviderState.rows (state : ProviderState) : List (Option JString × Option JString) :=
  (state.contacts.getD []).zipIdx.flatMap fun p => state.contactRows p.2 p.1

/-- A row as it is to be printed, whatever the code does. -/
def printedRow (row : Option JString × Option JString) : JString :=
  jstring "Name: " ++ row.1.getD (jstring "null") ++ jstring "\nPhone Number: " ++
    row.2.getD (jstring "null") ++ jstring "\n"

def serialize (rows : List (Option JString × Option JString)) : JString :=
  rows.flatMap printedRow

theorem shown_eq (s : Option JString) : shown s = s.getD (jstring "null") := by
  cases s <;> rfl

theorem entry_eq (name phoneNo : Option JString) : entry name phoneNo = printedRow (name, phoneNo) := by
  have hlabel : jstring "\nPhone Number: " = jstring "\n" ++ jstring "Phone Number: " := by decide
  rw [entry, printedRow, hlabel, shown_eq, shown_eq]
  simp only [List.append_assoc]

theorem scan_phones (name : Option JString) (numbers : List (Option JString)) (count : Except χ Int)
    (sb : JString) :
    (Cursor.scan ⟨count, numbers.map phoneRow, .ok ()⟩ (appendPhone (χ := χ) name) sb).result =
      .ok (sb ++ serialize (numbers.map fun number => (name, number))) := by
  have hprinted : ∀ i number sb, (appendPhone (χ := χ) name i (phoneRow number) sb).result =
      .ok (sb ++ printedRow (name, number)) := by
    intro i number sb
    rw [← entry_eq]
    rfl
  have hloop := eachRow_append (appendPhone (χ := χ) name) phoneRow
    (fun _ number => printedRow (name, number)) hprinted 0 numbers sb
  have hindex : numbers.zipIdx.flatMap (fun p => printedRow (name, p.1)) =
      numbers.flatMap fun number => printedRow (name, number) := by
    rw [← List.flatMap_map (f := Prod.fst) (g := fun number => printedRow (name, number)),
      List.zipIdx_map_fst]
  rw [Cursor.scan, hloop, hindex, serialize, List.flatMap_map]

theorem appendContact_result (state : ProviderState) (i : Nat) (contact : Contact) (sb : JString) :
    (appendContact (χ := χ) state.resolver i contact.row sb).result =
      .ok (sb ++ serialize (state.contactRows i contact)) := by
  simp only [appendContact, Contact.row, call_ok_bind]
  by_cases hflag : 0 < contact.hasPhoneNumber
  · rw [if_pos hflag, ProviderState.contactRows, if_pos hflag]
    cases hp : state.phones i contact.id with
    | none =>
      simp only [ProviderState.resolver, hp, Option.map_none, obtainCursor_none_bind]
      show Except.ok sb = _
      rw [Option.getD_none, List.map_nil, serialize, List.flatMap_nil, List.append_nil]
    | some numbers =>
      have hscan := scan_phones (χ := χ) contact.name numbers (.ok numbers.length) sb
      simp only [ProviderState.resolver, hp, Option.map_some, obtainCursor_some_bind,
        bind_of_ok hscan, Option.getD_some]
      rfl
  · rw [if_neg hflag, ProviderState.contactRows, if_neg hflag]
    show Except.ok sb = _
    rw [serialize, List.flatMap_nil, List.append_nil]

theorem getContactsAsString_of_query {cr : ContentResolver χ} {query : Cursor χ (ContactRow χ)}
    (h : cr.contacts = .ok (some query)) {count : Int} (hc : query.getCount = .ok count) :
    getContactsAsString cr =
      ⟨.opened .query :: ((if 0 < count then query.scan (appendContact cr) [] else pure []).log ++
          [.closed .query]),
        (if 0 < count then query.scan (appendContact cr) [] else pure []).result⟩ := by
  rw [getContactsAsString, h, obtainCursor_some_bind]
  simp only [andFinally_emit, hc, call_ok_bind]

theorem getContactsAsString_result (state : ProviderState) :
    (getContactsAsString (χ := χ) state.resolver).result = .ok (serialize state.rows) := by
  cases hc : state.contacts with
  | none =>
    simp only [getContactsAsString, ProviderState.resolver, hc, Option.map_none,
      obtainCursor_none_bind, ProviderState.rows, Option.getD_none]
    rfl
  | some contacts =>
    have hloop := eachRow_append (appendContact (χ := χ) state.resolver) Contact.row
      (fun i contact => serialize (state.contactRows i contact)) (appendContact_result state) 0
      contacts []
    have hrows : serialize state.rows =
        contacts.zipIdx.flatMap fun p => serialize (state.contactRows p.2 p.1) := by
      rw [serialize, ProviderState.rows, hc, Option.getD_some, List.flatMap_assoc]
      rfl
    have hquery : (state.resolver (χ := χ)).contacts =
        .ok (some ⟨.ok contacts.length, contacts.map Contact.row, .ok ()⟩) := by
      rw [ProviderState.resolver, hc, Option.map_some]
    rw [getContactsAsString_of_query hquery rfl, hrows]
    by_cases hpos : 0 < (contacts.length : Int)
    · rw [if_pos hpos]
      exact hloop
    · have hnil : contacts = [] := List.eq_nil_of_length_eq_zero (by omega)
      rw [if_neg hpos, hnil]
      rfl

/-- The nested loops print the rows of the provider in order; what is missing
prints nothing. -/
theorem contacts_printed_in_order (state : ProviderState) :
    (getContactsAsString (χ := χ) state.resolver).result = .ok (serialize state.rows) ∧
      (state.contacts = none → (getContactsAsString (χ := χ) state.resolver).result = .ok []) ∧
      (∀ i contact, state.phones i contact.id = none → state.contactRows i contact = []) ∧
      ∀ i contact, ∀ row ∈ state.contactRows i contact,
        0 < contact.hasPhoneNumber ∧ row.1 = contact.name := by
  refine ⟨getContactsAsString_result state, fun hnone => ?_, fun i contact hnone => ?_,
    fun i contact row hrow => ?_⟩
  · rw [getContactsAsString_result, ProviderState.rows, hnone]
    rfl
  · rw [ProviderState.contactRows, hnone]
    exact ite_self _
  · rw [ProviderState.contactRows] at hrow
    split at hrow
    · rename_i hflag
      obtain ⟨number, -, rfl⟩ := List.mem_map.mp hrow
      exact ⟨hflag, rfl⟩
    · exact absurd hrow List.not_mem_nil

end TaintdroidHack
