import Mathlib.Data.List.OfFn
import Mathlib.Data.Fintype.Basic

/-!
# UUIDs and their text

A `UUID` is its thirty-two hexadecimal digits. `Uuid.text` is `str(uuid)`, the digits in lower case with four
dashes: it has 36 characters (`Uuid.length_text`), and the UUID is read back from it (`Uuid.ofText_text`).
-/

namespace ContentGenerator.Lib

open List

/-- A hexadecimal digit in lower case. -/
def hexDigit (digit : Fin 16) : Char :=
  if digit.val < 10 then Char.ofNat (48 + digit.val) else Char.ofNat (87 + digit.val)

theorem hexDigit_ne_dash (digit : Fin 16) : hexDigit digit ≠ '-' := by
  revert digit
  decide

/-- A `UUID`. -/
structure Uuid where
  digits : Fin 32 → Fin 16

namespace Uuid

def hex (id : Uuid) : List Char := ofFn fun i ↦ hexDigit (id.digits i)

/-- The characters of `str(uuid)`. -/
def chars (id : Uuid) : List Char :=
  id.hex.take 8 ++ '-' :: (id.hex.drop 8).take 4 ++ '-' :: (id.hex.drop 12).take 4 ++
    '-' :: (id.hex.drop 16).take 4 ++ '-' :: id.hex.drop 20

/-- `str(uuid)`. -/
def text (id : Uuid) : String := String.ofList id.chars

def repeated (digit : ℕ) : Uuid := ⟨fun _ ↦ Fin.ofNat 16 digit⟩

variable {id : Uuid} {c : Char}

@[simp] theorem length_hex (id : Uuid) : id.hex.length = 32 := length_ofFn

@[simp] theorem length_text (id : Uuid) : id.text.length = 36 := by
  rw [text, String.length_ofList]
  simp [chars]

theorem hexDigit_of_mem_hex (h : c ∈ id.hex) : ∃ digit, c = hexDigit digit := by
  obtain ⟨i, rfl⟩ := (mem_ofFn' _ _).mp h
  exact ⟨_, rfl⟩

/-- Without the dashes the text is the digits. -/
theorem filter_chars (id : Uuid) : id.chars.filter (· ≠ '-') = id.hex := by
  have hkeep : ∀ part : List Char, part ⊆ id.hex → part.filter (· ≠ '-') = part := by
    intro part hpart
    refine filter_eq_self.mpr fun c hc ↦ ?_
    obtain ⟨digit, rfl⟩ := hexDigit_of_mem_hex (hpart hc)
    exact decide_eq_true (hexDigit_ne_dash digit)
  have hdash : ∀ rest : List Char, ('-' :: rest).filter (· ≠ '-') = rest.filter (· ≠ '-') := fun _ ↦
    filter_cons_of_neg (by decide)
  have hmiddle : ∀ k n, ((id.hex.drop k).take n).filter (· ≠ '-') = (id.hex.drop k).take n := fun k n ↦
    hkeep _ fun c hc ↦ mem_of_mem_drop (mem_of_mem_take hc)
  have hjoin : ∀ k n, (id.hex.drop k).take n ++ id.hex.drop (k + n) = id.hex.drop k := fun k n ↦ by
    rw [← drop_drop, take_append_drop]
  unfold chars
  simp only [append_assoc, cons_append, filter_append, hdash, hmiddle,
    hkeep _ (take_subset _ _), hkeep _ (drop_subset _ _)]
  rw [hjoin 16 4, hjoin 12 4, hjoin 8 4, take_append_drop]

/-! ### Reading the text -/

def hexValue (c : Char) : Option (Fin 16) := (finRange 16).find? fun digit ↦ hexDigit digit = c

@[simp] theorem hexValue_hexDigit (digit : Fin 16) : hexValue (hexDigit digit) = some digit := by
  revert digit
  decide

/-- The UUID of a text, when the text is thirty-two hexadecimal digits in lower case with dashes anywhere. -/
def ofText (text : String) : Option Uuid :=
  let hex := text.toList.filter (· ≠ '-')
  if hex.length = 32 ∧ hex.all (fun c ↦ (hexValue c).isSome) then
    some ⟨fun i ↦ (hex[i.val]?.bind hexValue).getD 0⟩
  else none

@[simp] theorem ofText_text (id : Uuid) : ofText id.text = some id := by
  have hhex : id.text.toList.filter (· ≠ '-') = id.hex := by
    rw [text, String.toList_ofList, filter_chars]
  have hdigits : id.hex.all (fun c ↦ (hexValue c).isSome) = true := by
    refine all_eq_true.mpr fun c hc ↦ ?_
    obtain ⟨digit, rfl⟩ := hexDigit_of_mem_hex hc
    rw [hexValue_hexDigit]
    rfl
  have hread : ∀ i : Fin 32, (id.hex[i.val]?.bind hexValue).getD 0 = id.digits i := by
    intro i
    rw [hex, List.getElem?_ofFn, dif_pos i.isLt, Option.bind_some, hexValue_hexDigit]
    rfl
  unfold ofText
  dsimp only
  rw [hhex, if_pos ⟨length_hex id, hdigits⟩]
  simp only [hread]

end Uuid

end ContentGenerator.Lib
