import Mathlib

/-! Base64 with the standard alphabet and canonical padding: four digits of six bits for every three bytes,
and a last group with one or two padding characters, whose unused bits are zero. -/

namespace Base64

def alphabet : List Char :=
  "ABCDEFGHIJKLMNOPQRSTUVWXYZabcdefghijklmnopqrstuvwxyz0123456789+/".toList

def digit (n : Nat) : Char := alphabet.getD (n % 64) 'A'

def value (c : Char) : Option Nat := if c ∈ alphabet then some (alphabet.idxOf c) else none

/-- The digits of a number of four of them. -/
def digits (n : Nat) : List Char := [digit (n / 262144), digit (n / 4096), digit (n / 64), digit n]

def encodeChars : List UInt8 → List Char
  | [] => []
  | [a] => (digits (a.toNat * 65536)).take 2 ++ ['=', '=']
  | [a, b] => (digits (a.toNat * 65536 + b.toNat * 256)).take 3 ++ ['=']
  | a :: b :: c :: rest =>
      digits (a.toNat * 65536 + b.toNat * 256 + c.toNat) ++ encodeChars rest

/-- The number that is written with four digits. -/
def number (w x y z : Char) : Option Nat := do
  pure ((← value w) * 262144 + (← value x) * 4096 + (← value y) * 64 + (← value z))

/-- The three bytes of a number. -/
def bytes (n : Nat) : List UInt8 := [.ofNat (n / 65536), .ofNat (n / 256), .ofNat n]

/-- The first bytes of a padded group; the bits after them have to be zero. -/
def padded (count : Nat) (n : Nat) : Option (List UInt8) :=
  if n % 256 ^ (3 - count) = 0 then some ((bytes n).take count) else none

def decodeChars : List Char → Option (List UInt8)
  | [] => some []
  | w :: x :: y :: z :: rest =>
      if z = '=' then
        if rest ≠ [] then none
        else if y = '=' then (number w x 'A' 'A').bind (padded 1)
        else (number w x y 'A').bind (padded 2)
      else do pure (bytes (← number w x y z) ++ (← decodeChars rest))
  | _ => none

def encode (bytes : List UInt8) : String := String.ofList (encodeChars bytes)

def decode (text : String) : Option (List UInt8) := decodeChars text.toList

/-! ### Decoding undoes encoding -/

theorem value_digit (n : Nat) : value (digit n) = some (n % 64) := by
  have hall : ∀ d : Fin 64, value (alphabet.getD d.val 'A') = some d.val := by decide +kernel
  exact hall ⟨n % 64, Nat.mod_lt n (by norm_num)⟩

theorem digit_ne_pad (n : Nat) : digit n ≠ '=' := by
  have hall : ∀ d : Fin 64, alphabet.getD d.val 'A' ≠ '=' := by decide +kernel
  exact hall ⟨n % 64, Nat.mod_lt n (by norm_num)⟩

theorem number_digits {n : Nat} (h : n < 16777216) :
    number (digit (n / 262144)) (digit (n / 4096)) (digit (n / 64)) (digit n) = some n := by
  simp only [number, value_digit, Option.pure_def, Option.bind_eq_bind, Option.bind_some,
    Option.some.injEq]
  omega

theorem digit_of_dvd {n : Nat} (h : n % 64 = 0) : digit n = 'A' := by
  rw [digit, h]
  rfl

theorem ofNat_eq {a : UInt8} {n : Nat} (h : n % 256 = a.toNat) : UInt8.ofNat n = a := by
  apply UInt8.toNat_inj.mp
  rw [UInt8.toNat_ofNat']
  exact h

theorem decodeChars_encodeChars (bytes : List UInt8) : decodeChars (encodeChars bytes) = some bytes := by
  induction bytes using encodeChars.induct with
  | case1 => rfl
  | case2 a =>
      have ha := a.toNat_lt
      have hnumber := number_digits (n := a.toNat * 65536) (by omega)
      rw [digit_of_dvd (n := a.toNat * 65536 / 64) (by omega),
        digit_of_dvd (n := a.toNat * 65536) (by omega)] at hnumber
      simp only [encodeChars, digits, List.take_succ_cons, List.take_zero, List.cons_append,
        List.nil_append, decodeChars, if_true, hnumber, Option.bind_some, ne_eq, not_true, if_false]
      rw [padded, if_pos (by omega)]
      simp only [Base64.bytes, List.take_succ_cons, List.take_zero]
      rw [ofNat_eq (a := a) (by omega)]
  | case3 a b =>
      have ha := a.toNat_lt
      have hb := b.toNat_lt
      have hnumber := number_digits (n := a.toNat * 65536 + b.toNat * 256) (by omega)
      rw [digit_of_dvd (n := a.toNat * 65536 + b.toNat * 256) (by omega)] at hnumber
      simp only [encodeChars, digits, List.take_succ_cons, List.take_zero, List.cons_append,
        List.nil_append, decodeChars, if_true, digit_ne_pad, hnumber, Option.bind_some, ne_eq, not_true,
        if_false]
      rw [padded, if_pos (by omega)]
      simp only [Base64.bytes, List.take_succ_cons, List.take_zero]
      rw [ofNat_eq (a := a) (by omega), ofNat_eq (a := b) (by omega)]
  | case4 a b c rest ih =>
      have ha := a.toNat_lt
      have hb := b.toNat_lt
      have hc := c.toNat_lt
      have hnumber := number_digits (n := a.toNat * 65536 + b.toNat * 256 + c.toNat) (by omega)
      simp only [encodeChars, digits, List.cons_append, List.nil_append, decodeChars, digit_ne_pad,
        if_false, hnumber, ih, Option.pure_def, Option.bind_eq_bind, Option.bind_some, Base64.bytes]
      rw [ofNat_eq (a := a) (by omega), ofNat_eq (a := b) (by omega), ofNat_eq (a := c) (by omega)]

theorem decode_encode (bytes : List UInt8) : decode (encode bytes) = some bytes := by
  rw [decode, encode, String.toList_ofList, decodeChars_encodeChars]

end Base64
