import Mathlib.Algebra.BigOperators.Group.List.Basic
import Mathlib.Algebra.Ring.Nat
import Mathlib.Data.List.Basic

set_option autoImplicit false

namespace TextEncodings

section Json

def hexDigit (n : UInt8) : UInt8 := if n < 10 then 0x30 + n else 0x57 + n

/-- The quote, the backslash and the control characters are escaped. -/
def escapeByte (b : UInt8) : List UInt8 :=
  if b = 0x22 then [0x5c, 0x22]
  else if b = 0x5c then [0x5c, 0x5c]
  else if b = 0x08 then [0x5c, 0x62]
  else if b = 0x09 then [0x5c, 0x74]
  else if b = 0x0a then [0x5c, 0x6e]
  else if b = 0x0c then [0x5c, 0x66]
  else if b = 0x0d then [0x5c, 0x72]
  else if b < 0x20 then [0x5c, 0x75, 0x30, 0x30, hexDigit (b / 16), hexDigit (b % 16)]
  else [b]

def jsonString (bytes : List UInt8) : List UInt8 := [0x22] ++ bytes.flatMap escapeByte ++ [0x22]

def commaSeparated (items : List (List UInt8)) : List UInt8 := [0x2c].intercalate items

def jsonArray (items : List (List UInt8)) : List UInt8 := [0x5b] ++ commaSeparated items ++ [0x5d]

def jsonObject (fields : List (List UInt8 × List UInt8)) : List UInt8 :=
  [0x7b] ++ commaSeparated (fields.map (fun f => jsonString f.1 ++ [0x3a] ++ f.2)) ++ [0x7d]

def stringSize (bytes : List UInt8) : ℕ := 2 + (bytes.map (fun b => (escapeByte b).length)).sum

theorem length_jsonString (bytes : List UInt8) : (jsonString bytes).length = stringSize bytes := by
  simp only [jsonString, stringSize, List.length_append, List.length_flatMap, List.length_singleton]
  omega

theorem length_commaSeparated (x : List UInt8) (xs : List (List UInt8)) :
    (commaSeparated (x :: xs)).length + 1 = ((x :: xs).map (fun item => item.length + 1)).sum := by
  unfold commaSeparated
  induction xs generalizing x with
  | nil => simp
  | cons y xs ih =>
    have hrest := ih y
    rw [List.intercalate_cons_of_ne_nil (List.cons_ne_nil y xs), List.map_cons, List.sum_cons, ← hrest,
      List.length_append, List.length_append, List.length_singleton]
    omega

/-- An empty array costs one byte more than its parts. -/
theorem length_jsonArray (items : List (List UInt8)) : (jsonArray items).length =
    (if items = [] then 2 else 1) + (items.map (fun item => item.length + 1)).sum := by
  unfold jsonArray
  cases items with
  | nil => rfl
  | cons x xs =>
    have hparts := length_commaSeparated x xs
    rw [if_neg (List.cons_ne_nil x xs), ← hparts]
    simp only [List.length_append, List.length_singleton]
    omega

theorem length_jsonObject (f : List UInt8 × List UInt8) (fs : List (List UInt8 × List UInt8)) :
    (jsonObject (f :: fs)).length =
      1 + ((f :: fs).map (fun f => stringSize f.1 + f.2.length + 2)).sum := by
  have hparts := length_commaSeparated (jsonString f.1 ++ [0x3a] ++ f.2)
    (fs.map (fun f => jsonString f.1 ++ [0x3a] ++ f.2))
  rw [← List.map_cons (f := fun f : List UInt8 × List UInt8 => jsonString f.1 ++ [0x3a] ++ f.2),
    List.map_map] at hparts
  have hsizes : (fun item : List UInt8 => item.length + 1) ∘
      (fun f : List UInt8 × List UInt8 => jsonString f.1 ++ [0x3a] ++ f.2) =
        fun f => stringSize f.1 + f.2.length + 2 := by
    funext f
    simp only [Function.comp, List.length_append, length_jsonString, List.length_singleton]
    omega
  rw [hsizes] at hparts
  unfold jsonObject
  rw [← hparts]
  simp only [List.length_append, List.length_singleton]
  omega

end Json

section Base64

def alphabet : List UInt8 :=
  (List.range 26).map (fun i => UInt8.ofNat (65 + i)) ++
    (List.range 26).map (fun i => UInt8.ofNat (97 + i)) ++
    (List.range 10).map (fun i => UInt8.ofNat (48 + i)) ++ [0x2b, 0x2f]

def sextet (n : ℕ) : UInt8 := alphabet.getD n 0x41

def base64 : List UInt8 → List UInt8
  | [] => []
  | [a] => [sextet (a.toNat / 4), sextet (a.toNat % 4 * 16), 0x3d, 0x3d]
  | [a, b] =>
    [sextet (a.toNat / 4), sextet (a.toNat % 4 * 16 + b.toNat / 16), sextet (b.toNat % 16 * 4), 0x3d]
  | a :: b :: c :: rest =>
    [sextet (a.toNat / 4), sextet (a.toNat % 4 * 16 + b.toNat / 16),
      sextet (b.toNat % 16 * 4 + c.toNat / 64), sextet (c.toNat % 64)] ++ base64 rest

theorem length_base64 (bytes : List UInt8) :
    (base64 bytes).length = (bytes.length + 2) / 3 * 4 := by
  fun_induction base64 bytes with
  | case1 => rfl
  | case2 a => simp
  | case3 a b => simp
  | case4 a b c rest ih =>
    rw [List.length_append, ih]
    simp only [List.length_cons, List.length_nil]
    omega

theorem escapeByte_alphabet : ∀ b ∈ alphabet, escapeByte b = [b] := by
  decide +kernel

theorem escapeByte_sextet (n : ℕ) : escapeByte (sextet n) = [sextet n] := by
  unfold sextet
  rw [List.getD_eq_getElem?_getD]
  cases hn : alphabet[n]? with
  | none => rfl
  | some b => exact escapeByte_alphabet b (List.mem_of_getElem? hn)

theorem flatMap_escapeByte_base64 (bytes : List UInt8) :
    (base64 bytes).flatMap escapeByte = base64 bytes := by
  have hpad : escapeByte 0x3d = [0x3d] := rfl
  fun_induction base64 bytes with
  | case1 => rfl
  | case2 a => simp [escapeByte_sextet, hpad]
  | case3 a b => simp [escapeByte_sextet, hpad]
  | case4 a b c rest ih => simp [escapeByte_sextet, ih]

theorem stringSize_base64 (bytes : List UInt8) :
    stringSize (base64 bytes) = 2 + (bytes.length + 2) / 3 * 4 := by
  rw [← length_jsonString, jsonString, flatMap_escapeByte_base64]
  simp only [List.length_append, List.length_singleton, length_base64]
  omega

end Base64
end TextEncodings
