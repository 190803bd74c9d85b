/-!
This module contains the texts of byte sequences: hexadecimal digits and base64.
-/

namespace DerivedQuery
namespace Hex

def digit (n : Nat) : Char :=
  Char.ofNat (if n < 10 then '0'.toNat + n else 'a'.toNat + (n - 10))

def value? (c : Char) : Option Nat :=
  if '0' ≤ c ∧ c ≤ '9' then some (c.toNat - '0'.toNat)
  else if 'a' ≤ c ∧ c ≤ 'f' then some (c.toNat - 'a'.toNat + 10)
  else if 'A' ≤ c ∧ c ≤ 'F' then some (c.toNat - 'A'.toNat + 10)
  else none

def encodeByte (b : UInt8) : List Char :=
  [digit (b.toNat / 16), digit (b.toNat % 16)]

def encode (bytes : List UInt8) : String :=
  String.ofList (bytes.flatMap encodeByte)

def decodeChars? : List Char → Option (List UInt8)
  | [] => some []
  | [_] => none
  | a :: b :: rest => do
    let high ← value? a
    let low ← value? b
    let bytes ← decodeChars? rest
    return UInt8.ofNat (16 * high + low) :: bytes

def decode? (s : String) : Option (List UInt8) :=
  decodeChars? s.toList

def nat? (digits : List Char) : Option Nat :=
  digits.foldlM (fun n c => (value? c).map (16 * n + ·)) 0

theorem value?_digit : ∀ n : Nat, n < 16 → value? (digit n) = some n := by
  decide

theorem decodeChars?_encode (bytes : List UInt8) :
    decodeChars? (bytes.flatMap encodeByte) = some bytes := by
  induction bytes with
  | nil => rfl
  | cons b bytes ih =>
    have hb : b.toNat < 256 := b.toNat_lt
    simp only [List.flatMap_cons, encodeByte, List.cons_append, List.nil_append, decodeChars?]
    rw [value?_digit _ (by omega), value?_digit _ (by omega), ih]
    simp only [Option.bind_eq_bind, Option.bind_some, Option.pure_def, Option.some.injEq,
      List.cons.injEq, and_true]
    rw [show 16 * (b.toNat / 16) + b.toNat % 16 = b.toNat by omega]
    simp

end Hex

namespace Base64

def alphabet : List Char :=
  "ABCDEFGHIJKLMNOPQRSTUVWXYZabcdefghijklmnopqrstuvwxyz0123456789+/".toList

def digit (n : Nat) : Char :=
  alphabet.getD n '='

def value? (c : Char) : Option Nat :=
  alphabet.findIdx? (· == c)

def encodeChars : List UInt8 → List Char
  | [] => []
  | [a] =>
    let n := a.toNat * 16
    [digit (n / 64), digit (n % 64), '=', '=']
  | [a, b] =>
    let n := (a.toNat * 256 + b.toNat) * 4
    [digit (n / 4096), digit (n / 64 % 64), digit (n % 64), '=']
  | a :: b :: c :: rest =>
    let n := (a.toNat * 256 + b.toNat) * 256 + c.toNat
    digit (n / 262144) :: digit (n / 4096 % 64) :: digit (n / 64 % 64) :: digit (n % 64) ::
      encodeChars rest

def encode (bytes : List UInt8) : String :=
  String.ofList (encodeChars bytes)

def byte (n : Nat) : UInt8 :=
  UInt8.ofNat n

/--
The bits that the last character carries beyond the last byte have to be zero.
-/
def decodeChars? : List Char → Option (List UInt8)
  | [] => some []
  | [a, b, '=', '='] => do
    let n := 64 * (← value? a) + (← value? b)
    if n % 16 = 0 then some [byte (n / 16)] else none
  | [a, b, c, '='] => do
    let n := 4096 * (← value? a) + 64 * (← value? b) + (← value? c)
    if n % 4 = 0 then some [byte (n / 1024), byte (n / 4)] else none
  | a :: b :: c :: d :: rest => do
    let n := 262144 * (← value? a) + 4096 * (← value? b) + 64 * (← value? c) + (← value? d)
    return byte (n / 65536) :: byte (n / 256) :: byte n :: (← decodeChars? rest)
  | _ => none

def decode? (s : String) : Option (List UInt8) :=
  decodeChars? s.toList

theorem value?_digit : ∀ n : Nat, n < 64 → value? (digit n) = some n := by
  decide +kernel

theorem digit_ne_pad {n : Nat} (h : n < 64) : digit n ≠ '=' := by
  intro hpad
  have hvalue := value?_digit n h
  rw [hpad] at hvalue
  have hnone : value? '=' = none := by decide +kernel
  rw [hnone] at hvalue
  contradiction

theorem decodeChars?_triple {a b c : Nat} (ha : a < 64) (hb : b < 64) (hc : c < 64)
    (hbits : (4096 * a + 64 * b + c) % 4 = 0) :
    decodeChars? [digit a, digit b, digit c, '=']
      =
    some [byte ((4096 * a + 64 * b + c) / 1024), byte ((4096 * a + 64 * b + c) / 4)] := by
  rw [decodeChars?]
  · rw [value?_digit a ha, value?_digit b hb, value?_digit c hc]
    simp [hbits]
  · intro hpad
    exact digit_ne_pad hc hpad

theorem decodeChars?_quad {a b c d : Nat} (ha : a < 64) (hb : b < 64) (hc : c < 64) (hd : d < 64)
    (rest : List Char) :
    decodeChars? (digit a :: digit b :: digit c :: digit d :: rest)
      =
    (decodeChars? rest).map fun bytes =>
      byte ((262144 * a + 4096 * b + 64 * c + d) / 65536) ::
        byte ((262144 * a + 4096 * b + 64 * c + d) / 256) ::
          byte (262144 * a + 4096 * b + 64 * c + d) :: bytes := by
  rw [decodeChars?.eq_def]
  split
  next heq => simp at heq
  next heq =>
    simp only [List.cons.injEq] at heq
    exact absurd heq.2.2.2.1 (digit_ne_pad hd)
  next heq =>
    simp only [List.cons.injEq] at heq
    exact absurd heq.2.2.2.1 (digit_ne_pad hd)
  next heq =>
    simp only [List.cons.injEq] at heq
    obtain ⟨rfl, rfl, rfl, rfl, rfl⟩ := heq
    rw [value?_digit a ha, value?_digit b hb, value?_digit c hc, value?_digit d hd]
    cases decodeChars? rest <;> rfl
  next h => exact absurd rfl (h _ _ _ _ _)

theorem byte_toNat (b : UInt8) {n : Nat} (h : n % 256 = b.toNat) : byte n = b := by
  rw [byte, ← UInt8.toNat_inj, UInt8.toNat_ofNat', h]

theorem decodeChars?_encodeChars (bytes : List UInt8) :
    decodeChars? (encodeChars bytes) = some bytes := by
  induction bytes using encodeChars.induct with
  | case1 => rfl
  | case2 a =>
    have ha : a.toNat < 256 := a.toNat_lt
    rw [encodeChars, decodeChars?, value?_digit _ (by omega), value?_digit _ (by omega)]
    have hbits : (64 * (a.toNat * 16 / 64) + a.toNat * 16 % 64) % 16 = 0 := by omega
    have hbyte : byte ((64 * (a.toNat * 16 / 64) + a.toNat * 16 % 64) / 16) = a :=
      byte_toNat a (by omega)
    simp [hbits, hbyte]
  | case3 a b =>
    have ha : a.toNat < 256 := a.toNat_lt
    have hb : b.toNat < 256 := b.toNat_lt
    rw [encodeChars, decodeChars?_triple (by omega) (by omega) (by omega) (by omega),
      byte_toNat a, byte_toNat b]
    all_goals omega
  | case4 a b c rest ih =>
    have ha : a.toNat < 256 := a.toNat_lt
    have hb : b.toNat < 256 := b.toNat_lt
    have hc : c.toNat < 256 := c.toNat_lt
    rw [encodeChars, decodeChars?_quad (by omega) (by omega) (by omega) (by omega), ih,
      Option.map_some, byte_toNat a, byte_toNat b, byte_toNat c]
    all_goals omega

end Base64
end DerivedQuery
