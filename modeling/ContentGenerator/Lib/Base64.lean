import Mathlib.Data.Nat.Notation

/-!
# URL-safe Base64

`urlsafeB64encode` and `urlsafeB64decode` of Python's `base64`. Three bytes are written as four characters of
six bits each, a rest of one or two bytes is padded with `=`. The decoder reads character by character,
passes over what is not in the alphabet, stops at the padding, and fails where the text ends within a
group. `decode_encode` is the round trip.
-/

namespace ContentGenerator.Lib.Base64

open UInt8 (ofNat)

def alphabet (value : ℕ) : Char :=
  if value < 26 then Char.ofNat (65 + value)
  else if value < 52 then Char.ofNat (71 + value)
  else if value < 62 then Char.ofNat (value - 4)
  else if value = 62 then '-'
  else '_'

/-- The value of a character, in the URL-safe or in the standard alphabet. -/
def valueOf (c : Char) : Option ℕ :=
  if 65 ≤ c.toNat ∧ c.toNat ≤ 90 then some (c.toNat - 65)
  else if 97 ≤ c.toNat ∧ c.toNat ≤ 122 then some (c.toNat - 71)
  else if 48 ≤ c.toNat ∧ c.toNat ≤ 57 then some (c.toNat + 4)
  else if c = '-' ∨ c = '+' then some 62
  else if c = '_' ∨ c = '/' then some 63
  else none

theorem valueOf_alphabet {value : ℕ} (h : value < 64) :
    valueOf (alphabet value) = some value ∧ alphabet value ≠ '=' := by
  have hall : ∀ value : Fin 64, valueOf (alphabet value.val) = some value.val ∧ alphabet value.val ≠ '=' := by
    decide
  exact hall ⟨value, h⟩

def urlsafeB64encode : List UInt8 → List Char
  | a :: b :: c :: rest =>
    alphabet (a.toNat / 4) :: alphabet (a.toNat % 4 * 16 + b.toNat / 16) ::
      alphabet (b.toNat % 16 * 4 + c.toNat / 64) :: alphabet (c.toNat % 64) :: urlsafeB64encode rest
  | [a, b] =>
    [alphabet (a.toNat / 4), alphabet (a.toNat % 4 * 16 + b.toNat / 16), alphabet (b.toNat % 16 * 4), '=']
  | [a] => [alphabet (a.toNat / 4), alphabet (a.toNat % 4 * 16), '=', '=']
  | [] => []

/-- The loop of the decoder: the place within the group of four, the bits left over from the character
before and the padding seen in the group. -/
def decodeLoop : List Char → ℕ → ℕ → ℕ → Option (List UInt8)
  | [], quadPos, _, _ => if quadPos = 0 then some [] else none
  | c :: rest, quadPos, left, pads =>
    if c = '=' then
      if 2 ≤ quadPos then
        if 4 ≤ quadPos + (pads + 1) then some [] else decodeLoop rest quadPos left (pads + 1)
      else decodeLoop rest quadPos left pads
    else match valueOf c with
      | none => decodeLoop rest quadPos left pads
      | some value =>
        match quadPos with
        | 0 => decodeLoop rest 1 value 0
        | 1 => (decodeLoop rest 2 (value % 16) 0).map (ofNat (left * 4 + value / 16) :: ·)
        | 2 => (decodeLoop rest 3 (value % 4) 0).map (ofNat (left * 16 + value / 4) :: ·)
        | _ => (decodeLoop rest 0 0 0).map (ofNat (left * 64 + value) :: ·)

def urlsafeB64decode (text : List Char) : Option (List UInt8) := decodeLoop text 0 0 0

/-- Every group of three bytes, the last one padded, is written as four characters. -/
theorem length_urlsafeB64encode : (bytes : List UInt8) →
    (urlsafeB64encode bytes).length = 4 * ((bytes.length + 2) / 3)
  | a :: b :: c :: rest => by
    have ih := length_urlsafeB64encode rest
    rw [urlsafeB64encode]
    simp only [List.length_cons, ih]
    omega
  | [_, _] => by simp [urlsafeB64encode]
  | [_] => by simp [urlsafeB64encode]
  | [] => rfl

section Loop

variable {value : ℕ} (rest : List Char) (left pads : ℕ)

theorem decodeLoop_first (h : value < 64) :
    decodeLoop (alphabet value :: rest) 0 left pads = decodeLoop rest 1 value 0 := by
  obtain ⟨hvalue, hpad⟩ := valueOf_alphabet h
  rw [decodeLoop, if_neg hpad, hvalue]
  rfl

theorem decodeLoop_second (h : value < 64) :
    decodeLoop (alphabet value :: rest) 1 left pads =
      (decodeLoop rest 2 (value % 16) 0).map (ofNat (left * 4 + value / 16) :: ·) := by
  obtain ⟨hvalue, hpad⟩ := valueOf_alphabet h
  rw [decodeLoop, if_neg hpad, hvalue]
  rfl

theorem decodeLoop_third (h : value < 64) :
    decodeLoop (alphabet value :: rest) 2 left pads =
      (decodeLoop rest 3 (value % 4) 0).map (ofNat (left * 16 + value / 4) :: ·) := by
  obtain ⟨hvalue, hpad⟩ := valueOf_alphabet h
  rw [decodeLoop, if_neg hpad, hvalue]
  rfl

theorem decodeLoop_fourth (h : value < 64) :
    decodeLoop (alphabet value :: rest) 3 left pads =
      (decodeLoop rest 0 0 0).map (ofNat (left * 64 + value) :: ·) := by
  obtain ⟨hvalue, hpad⟩ := valueOf_alphabet h
  rw [decodeLoop, if_neg hpad, hvalue]
  rfl

end Loop

theorem ofNat_of_eq (byte : UInt8) {value : ℕ} (h : value = byte.toNat) : ofNat value = byte := by
  rw [h, UInt8.ofNat_toNat]

theorem decodeLoop_encode : (bytes : List UInt8) → (left : ℕ) →
    decodeLoop (urlsafeB64encode bytes) 0 left 0 = some bytes
  | [], left => rfl
  | [a], left => by
    have ha := a.toNat_lt
    rw [urlsafeB64encode, decodeLoop_first _ _ _ (by omega), decodeLoop_second _ _ _ (by omega),
      ofNat_of_eq a (by omega)]
    rfl
  | [a, b], left => by
    have ha := a.toNat_lt
    have hb := b.toNat_lt
    rw [urlsafeB64encode, decodeLoop_first _ _ _ (by omega), decodeLoop_second _ _ _ (by omega),
      decodeLoop_third _ _ _ (by omega), ofNat_of_eq a (by omega), ofNat_of_eq b (by omega)]
    rfl
  | a :: b :: c :: rest, left => by
    have ha := a.toNat_lt
    have hb := b.toNat_lt
    have hc := c.toNat_lt
    rw [urlsafeB64encode, decodeLoop_first _ _ _ (by omega), decodeLoop_second _ _ _ (by omega),
      decodeLoop_third _ _ _ (by omega), decodeLoop_fourth _ _ _ (by omega), decodeLoop_encode rest 0,
      ofNat_of_eq a (by omega), ofNat_of_eq b (by omega), ofNat_of_eq c (by omega)]
    rfl

@[simp] theorem decode_encode (bytes : List UInt8) : urlsafeB64decode (urlsafeB64encode bytes) = some bytes :=
  decodeLoop_encode bytes 0

end ContentGenerator.Lib.Base64
