import BitInfinity.Foundation.Borsh
import BitInfinity.Foundation.Fallible

/-!
# Cursors into byte strings

Positions are machine words of 64 bits.  An addition that leaves the word either wraps around or
panics, depending on how the program was built, and reading outside the bytes always panics.
Loops take fuel, so that a loop which never ends runs out of every amount of it.
-/

namespace BitInfinity.Foundation

/-- What becomes of an addition that leaves the word. -/
inductive Overflow
  | wraps
  | panics
  deriving DecidableEq, Repr

inductive Halt
  | overflow
  | outOfBounds
  | outOfFuel
  deriving DecidableEq, Repr

def Overflow.add (mode : Overflow) (a b : Nat) : Except Halt Nat :=
  if a + b < 2 ^ 64 then .ok (a + b)
  else
    match mode with
    | .wraps => .ok ((a + b) % 2 ^ 64)
    | .panics => .error .overflow

def byteAt (bytes : List UInt8) (i : Nat) : Except Halt UInt8 := okOr bytes[i]? .outOfBounds

def slice (bytes : List UInt8) (start stop : Nat) : Except Halt (List UInt8) := do
  ensure (start ≤ stop && stop ≤ bytes.length) .outOfBounds
  .ok ((bytes.drop start).take (stop - start))

/-- The little endian number of the bytes at `pos + offset` and after, each indexed on its own. -/
def leAt (mode : Overflow) (bytes : List UInt8) (pos : Nat) : (offset width : Nat) → Except Halt Nat
  | _, 0 => .ok 0
  | offset, width + 1 => do
    let i ← mode.add pos offset
    let b ← byteAt bytes i
    let high ← leAt mode bytes pos (offset + 1) width
    .ok (b.toNat + 256 * high)

def leValue (bytes : List UInt8) : (pos width : Nat) → Nat
  | _, 0 => 0
  | pos, width + 1 => (bytes.getD pos 0).toNat + 256 * leValue bytes (pos + 1) width

variable {mode : Overflow} {bytes : List UInt8} {a b c i : Nat}

theorem Overflow.add_eq (h : a + b < 2 ^ 64) : mode.add a b = .ok (a + b) := if_pos h

theorem Overflow.panics_add_eq_ok :
    Overflow.panics.add a b = .ok c ↔ a + b < 2 ^ 64 ∧ c = a + b := by
  by_cases h : a + b < 2 ^ 64
  · rw [Overflow.add_eq h, Except.ok.injEq]
    exact ⟨fun heq => ⟨h, heq.symm⟩, fun heq => heq.2.symm⟩
  · have hfault : Overflow.panics.add a b = .error .overflow := if_neg h
    rw [hfault]
    exact ⟨(nomatch ·), fun heq => absurd heq.1 h⟩

theorem Overflow.of_bind_panics_add {α : Type} {f : Nat → Except Halt α} {r : α}
    (h : (Overflow.panics.add a b >>= f) = .ok r) : a + b < 2 ^ 64 ∧ f (a + b) = .ok r := by
  obtain ⟨c, hadd, hrest⟩ := bind_eq_ok.mp h
  obtain ⟨hword, rfl⟩ := Overflow.panics_add_eq_ok.mp hadd
  exact ⟨hword, hrest⟩

theorem byteAt_eq (h : i < bytes.length) : byteAt bytes i = .ok (bytes.getD i 0) := by
  rw [byteAt, List.getD_eq_getElem?_getD, List.getElem?_eq_getElem h]
  rfl

theorem slice_eq (hle : a ≤ b) (hlen : b ≤ bytes.length) :
    slice bytes a b = .ok ((bytes.drop a).take (b - a)) := by
  simp [slice, ensure, hle, hlen]

theorem slice_eq_ok {part : List UInt8} : slice bytes a b = .ok part ↔
      a ≤ b ∧ b ≤ bytes.length ∧ part = (bytes.drop a).take (b - a) := by
  constructor
  · intro h
    obtain ⟨u, hrange, hpart⟩ := bind_eq_ok.mp h
    have hbounds : a ≤ b ∧ b ≤ bytes.length := by simpa using hrange
    exact ⟨hbounds.1, hbounds.2, (Except.ok.inj hpart).symm⟩
  · rintro ⟨hle, hlen, rfl⟩
    exact slice_eq hle hlen

theorem length_slice (hle : a ≤ b) (hlen : b ≤ bytes.length) :
    ((bytes.drop a).take (b - a)).length = b - a := by
  rw [List.length_take, List.length_drop]
  omega

theorem leAt_eq {pos offset width : Nat} (hbytes : bytes.length < 2 ^ 64)
    (h : pos + offset + width ≤ bytes.length) :
    leAt mode bytes pos offset width = .ok (leValue bytes (pos + offset) width) := by
  induction width generalizing offset with
  | zero => rfl
  | succ width ih =>
    have hadd : mode.add pos offset = .ok (pos + offset) := Overflow.add_eq (by omega)
    have hbyte := @byteAt_eq bytes (pos + offset) (by omega)
    rw [leAt, hadd, ok_bind, hbyte, ok_bind, ih (by omega), ok_bind, leValue,
      Nat.add_assoc pos offset 1]

/-! ## Numbers that were written -/

theorem getD_append_length (part : List UInt8) (pos : Nat) :
    (part ++ bytes).getD (part.length + pos) 0 = bytes.getD pos 0 := by
  rw [List.getD_eq_getElem?_getD, List.getD_eq_getElem?_getD,
    List.getElem?_append_right (by omega), Nat.add_sub_cancel_left]

theorem leValue_append (part : List UInt8) (pos width : Nat) :
    leValue (part ++ bytes) (part.length + pos) width = leValue bytes pos width := by
  induction width generalizing pos with
  | zero => rfl
  | succ width ih => rw [leValue, leValue, getD_append_length, Nat.add_assoc, ih]

theorem leValue_writeLE {width value : Nat} (h : value < 256 ^ width) (rest : List UInt8) :
    leValue (writeLE width value ++ rest) 0 width = value := by
  induction width generalizing value with
  | zero =>
    obtain rfl : value = 0 := by simpa using h
    rfl
  | succ width ih =>
    have hdiv : value / 256 < 256 ^ width := Nat.div_lt_of_lt_mul (by rwa [← pow_succ'])
    have hbyte : (UInt8.ofNat (value % 256)).toNat = value % 256 := by simp
    have htail := @leValue_append (writeLE width (value / 256) ++ rest)
      [UInt8.ofNat (value % 256)] 0 width
    rw [writeLE, List.cons_append, leValue, List.getD_cons_zero, hbyte]
    rw [show leValue (UInt8.ofNat (value % 256) :: (writeLE width (value / 256) ++ rest))
      (0 + 1) width = value / 256 from htail.trans (ih hdiv)]
    omega

/-! ## What lies behind a position -/

variable {part rest : List UInt8} {pos width value : Nat}

theorem leValue_drop (pos offset width : Nat) :
    leValue (bytes.drop pos) offset width = leValue bytes (pos + offset) width := by
  induction width generalizing offset with
  | zero => rfl
  | succ width ih =>
    rw [leValue, leValue, ih, List.getD_eq_getElem?_getD, List.getD_eq_getElem?_getD,
      List.getElem?_drop, Nat.add_assoc]

theorem leValue_of_drop (h : bytes.drop pos = writeLE width value ++ rest)
    (hvalue : value < 256 ^ width) : leValue bytes pos width = value := by
  have hdrop := @leValue_drop bytes pos 0 width
  rw [h, leValue_writeLE hvalue] at hdrop
  exact hdrop.symm

theorem drop_add_of_drop (h : bytes.drop pos = part ++ rest) :
    bytes.drop (pos + part.length) = rest := by
  rw [← List.drop_drop, h, List.drop_left]

theorem take_of_drop (h : bytes.drop pos = part ++ rest) :
    (bytes.drop pos).take part.length = part := by
  rw [h, List.take_left]

theorem length_of_drop (h : bytes.drop pos = part ++ rest) (hpos : pos ≤ bytes.length) :
    pos + part.length + rest.length = bytes.length := by
  have hlength := congrArg List.length h
  rw [List.length_drop, List.length_append] at hlength
  omega

theorem getD_of_drop {b : UInt8} (h : bytes.drop pos = b :: rest) : bytes.getD pos 0 = b := by
  have hget := congrArg (·.getD 0 0) h
  simpa [List.getD_eq_getElem?_getD, List.getElem?_drop] using hget

end BitInfinity.Foundation
