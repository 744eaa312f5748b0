import Mathlib.Data.List.TakeWhile
import TaintdroidHack.Framing

/-! What the native code takes from C and from JNI on a 32-bit platform:
integer casts, zero-terminated strings, `sprintf`, and string conversion. -/

namespace TaintdroidHack

open Framing

abbrev Bytes := List UInt8

abbrev JString := List UInt16

-- `(int)` of an unsigned size, which wraps from 2^31 on.
def toInt (n : Nat) : Int := Int.bmod n (2 ^ 32)

-- `(size_t)` of an `int`, which wraps below zero.
def toSize (i : Int) : Nat := (i % 2 ^ 32).toNat

theorem toInt_of_lt {n : Nat} (h : n < 2 ^ 31) : toInt n = n := by
  exact Int.bmod_eq_of_le_mul_two (by push_cast; omega) (by push_cast; omega)

theorem toSize_sub {m n : Nat} (hm : m ≤ n) (hn : n < 2 ^ 31) :
    toSize ((n : Int) - m) = n - m := by
  have he : (n : Int) - m = ((n - m : Nat) : Int) := by omega
  rw [toSize, he]
  omega

def cString (s : Bytes) : Bytes := s.takeWhile (· ≠ 0)

def strlen (s : Bytes) : Nat := (cString s).length

theorem cString_of_zero_not_mem {s : Bytes} (h : 0 ∉ s) : cString s = s := by
  rw [cString, List.takeWhile_eq_self_iff]
  intro b hb
  simpa using fun he : b = 0 => h (he ▸ hb)

theorem strlen_of_zero_not_mem {s : Bytes} (h : 0 ∉ s) : strlen s = s.length := by
  rw [strlen, cString_of_zero_not_mem h]

def getStringUTFChars (s : JString) : Bytes := Utf.encodeModified s

/-- Bytes that are not modified UTF-8 make the checking JNI of a debuggable
application abort, so that the call does not return. -/
def newStringUTF (s : Bytes) : Option JString := Utf.decodeModified (cString s)

theorem zero_not_mem_getStringUTFChars (s : JString) : (0 : UInt8) ∉ getStringUTFChars s :=
  Utf.zero_not_mem_encodeModified s

theorem newStringUTF_getStringUTFChars (s : JString) :
    newStringUTF (getStringUTFChars s) = some s := by
  rw [newStringUTF, cString_of_zero_not_mem (zero_not_mem_getStringUTFChars s)]
  exact Utf.decodeModified_encodeModified s

inductive FormatArg where
  | int (i : Int)
  | str (s : Bytes)

def decimalInt (i : Int) : Bytes :=
  if i < 0 then 45 :: decimal i.natAbs else decimal i.natAbs

-- 37, 100 and 115 are `%`, `d` and `s`; a conversion without its argument is undefined.
def convert (c : UInt8) (arg : Option FormatArg) : Bytes :=
  match arg with
  | some (.int i) => if c = 100 then decimalInt i else []
  | some (.str s) => if c = 115 then cString s else []
  | none => []

def format : Bytes → List FormatArg → Bytes
  | b :: c :: fmt, args =>
    if b = 37 ∧ (c = 100 ∨ c = 115) then convert c args.head? ++ format fmt args.tail
    else b :: format (c :: fmt) args
  | fmt, _ => fmt

/-- `sprintf` fails when the text is longer than `INT_MAX`, and then leaves the
array without defined contents. -/
def sprintf (fmt : Bytes) (args : List FormatArg) : Option Bytes :=
  let text := format fmt args
  if text.length < 2 ^ 31 then some text else none

theorem format_append {l : Bytes} (h : 37 ∉ l) (fmt : Bytes) (args : List FormatArg) :
    format (l ++ fmt) args = l ++ format fmt args := by
  induction l with
  | nil => rfl
  | cons b l ih =>
    have hb : b ≠ 37 := fun he => h (by simp [he])
    have hh := ih fun hm => h (by simp [hm])
    cases hl : l ++ fmt with
    | nil =>
      obtain ⟨rfl, rfl⟩ := List.append_eq_nil_iff.mp hl
      rfl
    | cons c rest =>
      rw [List.cons_append, hl, format, if_neg (fun hc => hb hc.1), ← hl, hh]
      rfl

theorem format_conversion {c : UInt8} (hc : c = 100 ∨ c = 115) (arg : FormatArg) (fmt : Bytes)
    (args : List FormatArg) :
    format (37 :: c :: fmt) (arg :: args) = convert c (some arg) ++ format fmt args := by
  rw [format, if_pos ⟨rfl, hc⟩]
  rfl

theorem decimalInt_toInt {n : Nat} (h : n < 2 ^ 31) : decimalInt (toInt n) = decimal n := by
  rw [toInt_of_lt h, decimalInt, if_neg (by omega), Int.natAbs_natCast]

end TaintdroidHack
