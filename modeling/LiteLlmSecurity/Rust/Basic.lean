import LiteLlmSecurity.Text.Decimal
import Mathlib.Data.List.DropRight
import Mathlib.Data.List.Forall2
import Std.Data.ExtTreeMap

/-!
# The parts of Rust the crate relies on

Strings are Lean strings: both are sequences of Unicode scalar values stored as
UTF-8, and both are ordered by code point. `asBytes` is the stored UTF-8 text.
A `BTreeMap` is a tree map up to equality of contents, which is what its `==`
compares; a `BTreeSet` is a finite set, since no modelled function observes the
order of its elements.

An addition of machine integers is the wrapped sum in a build without overflow
checks and a panic in a build with them. Functions that add take the build's
setting as a parameter, so a result about them covers both builds.
-/

namespace Rust

abbrev Bytes := List UInt8

/-! ## Strings -/

@[simp] theorem toString_string (s : String) : toString s = s := rfl

@[simp] theorem toString_uint16 (n : UInt16) : toString n = n.toNat.repr := rfl

@[simp] theorem toString_uint32 (n : UInt32) : toString n = n.toNat.repr := rfl

@[simp] theorem toString_uint64 (n : UInt64) : toString n = n.toNat.repr := rfl

/-- `str::as_bytes`: the UTF-8 bytes of a string. -/
def asBytes (s : String) : Bytes := s.toByteArray.data.toList

theorem asBytes_injective : Function.Injective asBytes := by
  intro s t h
  have hdata : s.toByteArray.data = t.toByteArray.data := Array.toList_inj.mp h
  exact String.toByteArray_inj.mp (by cases hs : s.toByteArray; cases ht : t.toByteArray; simp_all)

@[simp] theorem asBytes_inj {s t : String} : asBytes s = asBytes t ↔ s = t :=
  asBytes_injective.eq_iff

@[simp] theorem asBytes_append (s t : String) : asBytes (s ++ t) = asBytes s ++ asBytes t := by
  simp [asBytes, String.toByteArray_append]

/-- `char::is_whitespace`: the characters with the Unicode property `White_Space`. -/
def isWhitespace (c : Char) : Bool :=
  let n := c.toNat
  (9 ≤ n && n ≤ 13) || n == 0x20 || n == 0x85 || n == 0xA0 || n == 0x1680 ||
    (0x2000 ≤ n && n ≤ 0x200A) || n == 0x2028 || n == 0x2029 || n == 0x202F ||
    n == 0x205F || n == 0x3000

/-- `str::trim`: drop leading and trailing white space. -/
def trim (s : String) : String :=
  String.ofList ((s.toList.dropWhile isWhitespace).rdropWhile isWhitespace)

/-- A text that is all white space, or empty. -/
def Blank (s : String) : Prop := ∀ c ∈ s.toList, isWhitespace c = true

/-- Trimming leaves nothing exactly of a blank text. -/
theorem trim_eq_empty_iff (s : String) : trim s = "" ↔ Blank s := by
  have hempty : trim s = "" ↔ (s.toList.dropWhile isWhitespace).rdropWhile isWhitespace = [] := by
    rw [trim, ← String.toList_inj, String.toList_ofList]
    rfl
  rw [hempty, List.rdropWhile_eq_nil_iff]
  constructor
  · intro hall c hc
    rw [← List.takeWhile_append_dropWhile (p := isWhitespace) (l := s.toList),
      List.mem_append] at hc
    rcases hc with hfront | hrest
    · exact List.mem_takeWhile_imp hfront
    · exact hall c hrest
  · intro hall c hc
    exact hall c ((List.dropWhile_sublist _).subset hc)

/-! ## Collections and outcomes -/

/-- `BTreeMap`: equal as soon as it has the same entries. -/
abbrev BTreeMap (κ ν : Type) [Ord κ] := Std.ExtTreeMap κ ν compare

/-- How a call ends without a value: in an `Err`, or in a panic. -/
inductive Fault (ε : Type) where
  | err (error : ε)
  | panic
  deriving DecidableEq, Repr

/-- The result of a call that may panic. -/
abbrev Outcome (ε α : Type) := Except (Fault ε) α

/-- A `Result` is a call that does not panic. -/
def Outcome.ofResult {ε α : Type} : Except ε α → Outcome ε α
  | .ok a => .ok a
  | .error e => .error (.err e)

theorem Outcome.ofResult_ne_panic {ε α : Type} (result : Except ε α) :
    Outcome.ofResult result ≠ .error .panic := by
  cases result with
  | ok a => exact nofun
  | error e => exact nofun

theorem Outcome.map_ne_panic {ε α β : Type} {outcome : Outcome ε α}
    (nopanic : outcome ≠ .error .panic) (f : α → β) : outcome.map f ≠ .error .panic := by
  cases outcome with
  | ok a => exact nofun
  | error fault =>
      intro h
      cases h
      exact nopanic rfl

/-- A call that returns nothing is no call that returns something. -/
theorem Outcome.map_none_ne_some {ε α β : Type} (result : Except ε α) (b : β) :
    (Outcome.ofResult result).map (fun _ => none) ≠ .ok (some b) := by
  cases result with
  | ok a => exact nofun
  | error e => exact nofun

section Sequencing

variable {ε α β : Type}

@[simp] theorem ok_bind (a : α) (next : α → Except ε β) : (Except.ok a >>= next) = next a := rfl

@[simp] theorem error_bind (e : ε) (next : α → Except ε β) :
    (Except.error e >>= next) = .error e := rfl

@[simp] theorem throw_eq (e : ε) : (throw e : Except ε α) = .error e := rfl

@[simp] theorem pure_eq (a : α) : (pure a : Except ε α) = .ok a := rfl

@[simp] theorem map_ok (f : α → β) (a : α) : f <$> (Except.ok a : Except ε α) = .ok (f a) := rfl

@[simp] theorem map_error (f : α → β) (e : ε) :
    f <$> (Except.error e : Except ε α) = .error e := rfl

/-- A sequence returns exactly when its parts do. -/
theorem bind_eq_ok_iff {first : Except ε α} {next : α → Except ε β} {b : β} :
    (first >>= next) = .ok b ↔ ∃ a, first = .ok a ∧ next a = .ok b := by
  cases first <;> simp

/-- An early return is not taken by a call that succeeds. -/
theorem ite_error_eq_ok_iff {c : Prop} [Decidable c] {e : ε} {rest : Except ε α}
    {a : α} : (if c then .error e else rest) = .ok a ↔ ¬ c ∧ rest = .ok a := by
  by_cases h : c <;> simp [h]

theorem exists_error_iff {result : Except ε Unit} :
    (∃ e, result = .error e) ↔ ¬ result = .ok () := by
  cases result <;> simp

/-- Mapping over a list returns exactly when every call does, and returns their
results in order. -/
theorem mapM_eq_ok_iff {f : α → Except ε β} {xs : List α} {ys : List β} :
    xs.mapM f = .ok ys ↔ List.Forall₂ (fun x y => f x = .ok y) xs ys := by
  induction xs generalizing ys with
  | nil => cases ys <;> simp [eq_comm]
  | cons x xs ih =>
      cases ys with
      | nil => simp [bind_eq_ok_iff]
      | cons y ys => simp [bind_eq_ok_iff, ← ih]

end Sequencing

/-- `try_into` from a slice to an array, which needs the exact length. -/
def tryInto (n : Nat) (slice : Bytes) : Option (Vector UInt8 n) :=
  if h : slice.length = n then some ⟨slice.toArray, by simpa using h⟩ else none

@[simp] theorem tryInto_toList {n : Nat} (array : Vector UInt8 n) :
    tryInto n array.toList = some array := by
  simp [tryInto, Vector.toList]

theorem tryInto_eq_some_iff {n : Nat} {slice : Bytes} {array : Vector UInt8 n} :
    tryInto n slice = some array ↔ slice = array.toList := by
  constructor
  · intro h
    obtain ⟨hlength, harray⟩ := Option.dite_none_right_eq_some.mp h
    rw [← Option.some.inj harray, Vector.toList_mk]
  · rintro rfl
    exact tryInto_toList array

/-- Slice indexing panics out of range. -/
def index {ε α : Type} (slice : List α) (i : Nat) : Outcome ε α :=
  match slice[i]? with
  | some a => .ok a
  | none => .error .panic

/-- The `?` operator on an `Option`, whose `None` carries no error value. -/
def orNone {α : Type} : Option α → Outcome Unit α
  | some a => .ok a
  | none => .error (.err ())

/-! ## Overflow -/

/-- The build's `overflow-checks` setting. -/
inductive OverflowChecks where
  | on
  | off
  deriving DecidableEq, Repr

/-- An addition whose exact sum may or may not fit its type. -/
def addWith {ε α : Type} (checks : OverflowChecks) (fits : Prop) [Decidable fits] (sum : α) :
    Outcome ε α :=
  if checks = .on ∧ ¬ fits then .error .panic else .ok sum

def addU32 {ε : Type} (checks : OverflowChecks) (a b : UInt32) : Outcome ε UInt32 :=
  addWith checks (a.toNat + b.toNat < 2 ^ 32) (a + b)

def addU64 {ε : Type} (checks : OverflowChecks) (a b : UInt64) : Outcome ε UInt64 :=
  addWith checks (a.toNat + b.toNat < 2 ^ 64) (a + b)

section Addition

variable {ε α : Type} {checks : OverflowChecks} {fits : Prop} [Decidable fits] {sum result : α}

/-- An addition that returns at all returns the wrapped sum. -/
theorem eq_of_addWith_eq_ok (h : addWith (ε := ε) checks fits sum = .ok result) :
    result = sum := by
  unfold addWith at h
  split at h
  · cases h
  · exact (Except.ok.inj h).symm

theorem addWith_of_fits (h : fits) : addWith (ε := ε) checks fits sum = .ok sum := by
  simp [addWith, h]

end Addition

theorem addU32_of_fits {ε : Type} {a b : UInt32} (fits : a.toNat + b.toNat < 2 ^ 32)
    (checks : OverflowChecks) : addU32 (ε := ε) checks a b = .ok (a + b) := addWith_of_fits fits

/-- A sum with one that is not zero did not wrap around. -/
theorem toNat_add_one_of_ne_zero {n : UInt32} (h : n + 1 ≠ 0) : (n + 1).toNat = n.toNat + 1 := by
  have hne : (n + 1).toNat ≠ 0 := fun hzero => h (UInt32.toNat_inj.mp hzero)
  have hlt := n.toNat_lt
  have hone : (1 : UInt32).toNat = 1 := rfl
  rw [UInt32.toNat_add] at hne ⊢
  omega

theorem eq_of_addU32_eq_ok {ε : Type} {checks : OverflowChecks} {a b c : UInt32}
    (h : addU32 (ε := ε) checks a b = .ok c) : c = a + b := eq_of_addWith_eq_ok h

end Rust
