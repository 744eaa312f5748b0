import TaintdroidHack.ContactRows
import TaintdroidHack.Routes

/-! `CreateContactsTask.generateContacts`: the random contacts of the demo, and
that every route delivers them whole. -/

namespace TaintdroidHack

open Framing

inductive Uri where
  | RawContacts
  | Data
  deriving DecidableEq, Repr

inductive Column where
  | ACCOUNT_TYPE
  | ACCOUNT_NAME
  | RAW_CONTACT_ID
  | MIMETYPE
  | DISPLAY_NAME
  | NUMBER
  | TYPE
  deriving DecidableEq, Repr

inductive Value where
  | null
  | StructuredName_CONTENT_ITEM_TYPE
  | Phone_CONTENT_ITEM_TYPE
  | TYPE_MOBILE
  | string (s : JString)

structure ContentProviderOperation where
  uri : Uri
  valueBackReference : Option (Column × Nat)
  values : List (Column × Value)

abbrev Batch := List ContentProviderOperation

def contentProviderOperations (displayName number : JString) : Batch :=
  [{ uri := .RawContacts
     valueBackReference := none
     values := [(.ACCOUNT_TYPE, .null), (.ACCOUNT_NAME, .null)] },
    { uri := .Data
      valueBackReference := some (.RAW_CONTACT_ID, 0)
      values := [(.MIMETYPE, .StructuredName_CONTENT_ITEM_TYPE),
        (.DISPLAY_NAME, .string displayName)] },
    { uri := .Data
      valueBackReference := some (.RAW_CONTACT_ID, 0)
      values := [(.MIMETYPE, .Phone_CONTENT_ITEM_TYPE), (.NUMBER, .string number),
        (.TYPE, .TYPE_MOBILE)] }]

/-- The contact store as the batches it has applied; `applies i` tells whether
the `i`-th call of `applyBatch` does so or throws. -/
structure ContactStore where
  calls : Nat
  applied : List Batch

def writeContact (applies : Nat → Bool) (cr : ContactStore) (displayName number : JString) :
    ContactStore :=
  { calls := cr.calls + 1
    applied :=
      if applies cr.calls then cr.applied ++ [contentProviderOperations displayName number]
      -- both exceptions are logged, and nothing is inserted
      else cr.applied }

def LEN_FIRST_NAME : Nat := 5

def LEN_SURNAME : Nat := 7

def LEN_PHONE_NUMBER : Nat := 10

def NUM_CONTACTS_TO_CREATE : Nat := 10

def candidateChars : JString := jstring "ABCDEFGHIJKLMNOPQRSTUVWXYZabcdefghijklmnopqrstuvwxyz"

def nextInt (random : Nat → Nat) (drawn bound : Nat) : Nat := random drawn % bound

def randomChar (random : Nat → Nat) (drawn : Nat) : UInt16 :=
  candidateChars.getD (nextInt random drawn candidateChars.length) 0

def randomDigit (random : Nat → Nat) (drawn : Nat) : Int := nextInt random drawn 10

-- `StringBuilder.append` of an `int`.
def shownInt (i : Int) : JString := (decimalInt i).map UInt8.toUInt16

def appendChars (random : Nat → Nat) : Nat → Nat → JString → JString
  | 0, _, sb => sb
  | j + 1, drawn, sb => appendChars random j (drawn + 1) (sb ++ [randomChar random drawn])

def appendDigits (random : Nat → Nat) : Nat → Nat → JString → JString
  | 0, _, sb => sb
  | j + 1, drawn, sb => appendDigits random j (drawn + 1) (sb ++ shownInt (randomDigit random drawn))

def randomName (random : Nat → Nat) (drawn : Nat) : JString :=
  let sb := appendChars random LEN_FIRST_NAME drawn []
  appendChars random LEN_SURNAME (drawn + LEN_FIRST_NAME) (sb ++ jstring " ")

def randomNumber (random : Nat → Nat) (drawn : Nat) : JString :=
  appendDigits random LEN_PHONE_NUMBER (drawn + LEN_FIRST_NAME + LEN_SURNAME) []

structure DemoState where
  drawn : Nat
  cr : ContactStore

def createContact (random : Nat → Nat) (applies : Nat → Bool) (s : DemoState) : DemoState where
  drawn := s.drawn + LEN_FIRST_NAME + LEN_SURNAME + LEN_PHONE_NUMBER
  cr := writeContact applies s.cr (randomName random s.drawn) (randomNumber random s.drawn)

def generateContacts (random : Nat → Nat) (applies : Nat → Bool) (s : DemoState) : DemoState :=
  (createContact random applies)^[NUM_CONTACTS_TO_CREATE] s

def initialDemo : DemoState := ⟨0, ⟨0, []⟩⟩

def runDemo (random : Nat → Nat) (applies : Nat → Bool) (runs : Nat) : ContactStore :=
  ((generateContacts random applies)^[runs] initialDemo).cr

def stringOf (column : Column) (batch : Batch) : Option JString :=
  batch.findSome? fun operation => operation.values.findSome? fun value =>
    match value with
    | (c, .string s) => if c = column then some s else none
    | _ => none

def insertedContact (batch : Batch) : Option (JString × JString) := do
  let name ← stringOf .DISPLAY_NAME batch
  let number ← stringOf .NUMBER batch
  return (name, number)

def ContactStore.inserted (cr : ContactStore) : List (JString × JString) :=
  cr.applied.filterMap insertedContact

theorem insertedContact_operations (displayName number : JString) :
    insertedContact (contentProviderOperations displayName number) =
      some (displayName, number) := rfl

def InSymbols (s : JString) : Prop := ∀ u ∈ s, u ∈ symbols

theorem inSymbols_append {s t : JString} : InSymbols (s ++ t) ↔ InSymbols s ∧ InSymbols t :=
  List.forall_mem_append

theorem inSymbols_nil : InSymbols [] := fun _ hu => absurd hu List.not_mem_nil

def digitChars : JString := (List.range 10).map fun d => (digit d).toUInt16

theorem inSymbols_alphabet : InSymbols candidateChars ∧ InSymbols digitChars ∧
    InSymbols (jstring " ") ∧ InSymbols (jstring "Name: ") ∧ InSymbols (jstring "Phone Number: ") ∧
    InSymbols (jstring "\n") := by
  have hall : (candidateChars ++ (digitChars ++ (jstring " " ++ (jstring "Name: " ++
      (jstring "Phone Number: " ++ jstring "\n"))))).all (fun u => decide (u ∈ symbols)) = true := by
    decide +kernel
  simp only [← inSymbols_append]
  intro u hu
  exact of_decide_eq_true (List.all_eq_true.mp hall u hu)

theorem randomChar_mem (random : Nat → Nat) (drawn : Nat) :
    randomChar random drawn ∈ candidateChars := by
  have hpos : 0 < candidateChars.length := by decide
  have hlt : nextInt random drawn candidateChars.length < candidateChars.length :=
    Nat.mod_lt _ hpos
  rw [randomChar, List.getD_eq_getElem _ _ hlt]
  exact List.getElem_mem hlt

theorem digit_mem_symbols {b : UInt8} (h : Digit b) : b.toUInt16 ∈ symbols := by
  have hlt : b.toNat - 48 < 10 := by
    have := h.2
    omega
  have hb : b = digit (b.toNat - 48) := by
    have := h.1
    apply UInt8.toNat_inj.mp
    rw [toNat_digit hlt]
    omega
  rw [hb]
  exact inSymbols_alphabet.2.1 _ (List.mem_map_of_mem (List.mem_range.mpr hlt))

theorem inSymbols_shownInt_randomDigit (random : Nat → Nat) (drawn : Nat) :
    InSymbols (shownInt (randomDigit random drawn)) := by
  intro u hu
  obtain ⟨b, hb, rfl⟩ := List.mem_map.mp hu
  have hnonneg : ¬ randomDigit random drawn < 0 := by
    rw [randomDigit]
    omega
  rw [decimalInt, if_neg hnonneg] at hb
  exact digit_mem_symbols (digit_of_mem_decimal hb)

theorem inSymbols_appendChars (random : Nat → Nat) (j drawn : Nat) {sb : JString}
    (h : InSymbols sb) : InSymbols (appendChars random j drawn sb) := by
  induction j generalizing drawn sb with
  | zero => exact h
  | succ j ih =>
    rw [appendChars]
    apply ih
    refine inSymbols_append.mpr ⟨h, fun u hu => ?_⟩
    rw [List.mem_singleton.mp hu]
    exact inSymbols_alphabet.1 _ (randomChar_mem random drawn)

theorem inSymbols_appendDigits (random : Nat → Nat) (j drawn : Nat) {sb : JString}
    (h : InSymbols sb) : InSymbols (appendDigits random j drawn sb) := by
  induction j generalizing drawn sb with
  | zero => exact h
  | succ j ih =>
    rw [appendDigits]
    apply ih
    exact inSymbols_append.mpr ⟨h, inSymbols_shownInt_randomDigit random drawn⟩

theorem inSymbols_randomName (random : Nat → Nat) (drawn : Nat) :
    InSymbols (randomName random drawn) := by
  have hfirst := inSymbols_appendChars random LEN_FIRST_NAME drawn inSymbols_nil
  obtain ⟨-, -, hspace, -⟩ := inSymbols_alphabet
  exact inSymbols_appendChars _ _ _ (inSymbols_append.mpr ⟨hfirst, hspace⟩)

theorem inSymbols_randomNumber (random : Nat → Nat) (drawn : Nat) :
    InSymbols (randomNumber random drawn) := inSymbols_appendDigits _ _ _ inSymbols_nil

def ContactStore.InSymbols (cr : ContactStore) : Prop :=
  ∀ contact ∈ cr.inserted, TaintdroidHack.InSymbols contact.1 ∧ TaintdroidHack.InSymbols contact.2

theorem createContact_inSymbols (random : Nat → Nat) (applies : Nat → Bool) {s : DemoState}
    (h : s.cr.InSymbols) : (createContact random applies s).cr.InSymbols := by
  intro contact hc
  rw [createContact, ContactStore.inserted, writeContact] at hc
  dsimp only at hc
  split at hc
  · rw [List.filterMap_append] at hc
    rcases List.mem_append.mp hc with hc | hc
    · exact h contact hc
    · rw [List.filterMap_cons, insertedContact_operations] at hc
      obtain rfl := List.mem_singleton.mp hc
      exact ⟨inSymbols_randomName _ _, inSymbols_randomNumber _ _⟩
  · exact h contact hc

theorem iterate_inSymbols {step : DemoState → DemoState}
    (hstep : ∀ s, s.cr.InSymbols → (step s).cr.InSymbols) (n : Nat) {s : DemoState} (h : s.cr.InSymbols) :
    (step^[n] s).cr.InSymbols := by
  induction n with
  | zero => exact h
  | succ n ih =>
    rw [Function.iterate_succ_apply']
    exact hstep _ ih

theorem runDemo_inSymbols (random : Nat → Nat) (applies : Nat → Bool) (runs : Nat) :
    (runDemo random applies runs).InSymbols := by
  apply iterate_inSymbols
  · intro s hs
    exact iterate_inSymbols (fun s => createContact_inSymbols random applies) NUM_CONTACTS_TO_CREATE hs
  · intro contact hc
    exact absurd hc List.not_mem_nil

/-- The listed names and numbers are inserted ones, in any order and however
they are put together. -/
def ProviderState.Returns (state : ProviderState) (cr : ContactStore) : Prop :=
  ∀ row ∈ state.rows, (∃ contact ∈ cr.inserted, row.1 = some contact.1) ∧
    ∃ contact ∈ cr.inserted, row.2 = some contact.2

theorem serialize_inSymbols {state : ProviderState} {cr : ContactStore} (h : state.Returns cr)
    (hcr : cr.InSymbols) : InSymbols (serialize state.rows) := by
  obtain ⟨-, -, -, hname, hphone, hnewline⟩ := inSymbols_alphabet
  intro u hu
  obtain ⟨row, hrow, hu⟩ := List.mem_flatMap.mp hu
  obtain ⟨⟨c, hc, hc1⟩, ⟨d, hd, hd2⟩⟩ := h row hrow
  rw [← entry_eq row.1 row.2, hc1, hd2] at hu
  have hentry : InSymbols (entry (some c.1) (some d.2)) := by
    simp only [entry, inSymbols_append]
    exact ⟨⟨⟨⟨⟨hname, (hcr c hc).1⟩, hnewline⟩, hphone⟩, (hcr d hd).2⟩, hnewline⟩
  exact hentry u hu

theorem inSymbols_content {s : JString} (h : InSymbols s) : InSymbols (content [s]) := by
  obtain ⟨-, -, -, -, -, hsep⟩ := inSymbols_alphabet
  exact inSymbols_append.mpr ⟨inSymbols_append.mpr ⟨inSymbols_nil, h⟩, hsep⟩

theorem routeBytes_of_inSymbols {s : JString} (h : InSymbols s) (level : SecurityLevel) :
    routeBytes level s = Utf.encodeUtf8 s := by
  rw [routeBytes_eq]
  apply (Encoding.bytes_eq_iff level.encoding .utf8 s).mpr
  intro u hu
  cases level.encoding with
  | utf8 => trivial
  | table => exact h u hu
  | modified => exact plain_of_mem_symbols (h u hu)

variable {χ : Type}

/-- The contacts of any runs of the demo are made of letters that no route loses. -/
theorem demo_lossless (random : Nat → Nat) (applies : Nat → Bool) (runs : Nat)
    (state : ProviderState) (h : state.Returns (runDemo random applies runs)) :
    ∃ text, (getContactsAsString (χ := χ) state.resolver).result = .ok text ∧
      (∀ u ∈ content [text], u ∈ symbols) ∧
      Utf.encodeUtf8 (content [text]) = Utf.encodeModified (content [text]) ∧
      ∀ task env fs, StepsSucceed task env [text] →
        (doInBackground task env fs [text]).body = some (Utf.encodeUtf8 (content [text])) := by
  have htext := inSymbols_content (serialize_inSymbols h (runDemo_inSymbols random applies runs))
  refine ⟨serialize state.rows, getContactsAsString_result state, htext, ?_, ?_⟩
  · exact Utf.encodeUtf8_of_plain fun u hu => plain_of_mem_symbols (htext u hu)
  · intro task env fs hsucceed
    rw [(doInBackground_of_succeed hsucceed fs).2, routeBytes_of_inSymbols htext]

def listed (cr : ContactStore) : ProviderState :=
  listing (cr.inserted.map fun contact => (some contact.1, some contact.2))

theorem listed_returns (cr : ContactStore) : (listed cr).Returns cr := by
  intro row hrow
  rw [listed, listing_rows] at hrow
  obtain ⟨contact, hc, rfl⟩ := List.mem_map.mp hrow
  exact ⟨⟨contact, hc, rfl⟩, ⟨contact, hc, rfl⟩⟩

theorem demo_lossless_listed :
    ∃ text, (getContactsAsString (χ := Unit)
        (listed (runDemo (fun i => i) (fun _ => true) 2)).resolver).result = .ok text ∧
      (∀ u ∈ content [text], u ∈ symbols) ∧
      Utf.encodeUtf8 (content [text]) = Utf.encodeModified (content [text]) ∧
      ∀ task env fs, StepsSucceed task env [text] →
        (doInBackground task env fs [text]).body = some (Utf.encodeUtf8 (content [text])) :=
  demo_lossless (fun i => i) (fun _ => true) 2 _ (listed_returns _)

end TaintdroidHack
