import CordeliaCore.TextEncodings
import Mathlib.Data.List.Basic
import Mathlib.Data.String.Basic

set_option autoImplicit false

namespace TextEncodings

def sextetValue (c : UInt8) : Option ℕ := alphabet.idxOf? c

def decodeFour (a b c d : UInt8) : Option (List UInt8) := do
  let a ← sextetValue a
  let b ← sextetValue b
  let c ← sextetValue c
  let d ← sextetValue d
  return [UInt8.ofNat (4 * a + b / 16), UInt8.ofNat (16 * (b % 16) + c / 4),
    UInt8.ofNat (64 * (c % 4) + d)]

def decodeLast (a b c d : UInt8) : Option (List UInt8) :=
  if c = 0x3d ∧ d = 0x3d then do
    let a ← sextetValue a
    let b ← sextetValue b
    if b % 16 = 0 then some [UInt8.ofNat (4 * a + b / 16)] else none
  else if d = 0x3d then do
    let a ← sextetValue a
    let b ← sextetValue b
    let c ← sextetValue c
    if c % 4 = 0 then some [UInt8.ofNat (4 * a + b / 16), UInt8.ofNat (16 * (b % 16) + c / 4)]
    else none
  else decodeFour a b c d

def decodeBase64 : List UInt8 → Option (List UInt8)
  | [] => some []
  | [a, b, c, d] => decodeLast a b c d
  | a :: b :: c :: d :: rest => do
    let bytes ← decodeFour a b c d
    let more ← decodeBase64 rest
    return bytes ++ more
  | _ => none

theorem sextetValue_sextet : ∀ n < 64, sextetValue (sextet n) = some n := by
  decide +kernel

theorem sextet_ne_pad : ∀ n < 64, sextet n ≠ 0x3d := by
  decide +kernel

section Written
variable (a b c : UInt8)

theorem decodeFour_written : decodeFour (sextet (a.toNat / 4))
    (sextet (a.toNat % 4 * 16 + b.toNat / 16)) (sextet (b.toNat % 16 * 4 + c.toNat / 64))
    (sextet (c.toNat % 64)) = some [a, b, c] := by
  have ha := a.toNat_lt
  have hb := b.toNat_lt
  have hc := c.toNat_lt
  have hfirst : 4 * (a.toNat / 4) + (a.toNat % 4 * 16 + b.toNat / 16) / 16 = a.toNat := by omega
  have hsecond : 16 * ((a.toNat % 4 * 16 + b.toNat / 16) % 16) +
      (b.toNat % 16 * 4 + c.toNat / 64) / 4 = b.toNat := by omega
  have hthird : 64 * ((b.toNat % 16 * 4 + c.toNat / 64) % 4) + c.toNat % 64 = c.toNat := by omega
  rw [decodeFour, sextetValue_sextet _ (by omega), sextetValue_sextet _ (by omega),
    sextetValue_sextet _ (by omega), sextetValue_sextet _ (by omega)]
  simp only [Option.bind_eq_bind, Option.bind_some, hfirst, hsecond, hthird, UInt8.ofNat_toNat]
  rfl

theorem decodeLast_one : decodeLast (sextet (a.toNat / 4)) (sextet (a.toNat % 4 * 16)) 0x3d 0x3d =
    some [a] := by
  have ha := a.toNat_lt
  have hfirst : 4 * (a.toNat / 4) + a.toNat % 4 * 16 / 16 = a.toNat := by omega
  have hzero : a.toNat % 4 * 16 % 16 = 0 := by omega
  rw [decodeLast, if_pos ⟨rfl, rfl⟩, sextetValue_sextet _ (by omega),
    sextetValue_sextet _ (by omega)]
  simp only [Option.bind_eq_bind, Option.bind_some, hfirst, hzero, UInt8.ofNat_toNat]
  rfl

theorem decodeLast_two : decodeLast (sextet (a.toNat / 4))
    (sextet (a.toNat % 4 * 16 + b.toNat / 16)) (sextet (b.toNat % 16 * 4)) 0x3d = some [a, b] := by
  have ha := a.toNat_lt
  have hb := b.toNat_lt
  have hfirst : 4 * (a.toNat / 4) + (a.toNat % 4 * 16 + b.toNat / 16) / 16 = a.toNat := by omega
  have hsecond : 16 * ((a.toNat % 4 * 16 + b.toNat / 16) % 16) + b.toNat % 16 * 4 / 4 =
      b.toNat := by omega
  have hzero : b.toNat % 16 * 4 % 4 = 0 := by omega
  have hpad := sextet_ne_pad (b.toNat % 16 * 4) (by omega)
  rw [decodeLast, if_neg (fun h => hpad h.1), if_pos rfl, sextetValue_sextet _ (by omega),
    sextetValue_sextet _ (by omega), sextetValue_sextet _ (by omega)]
  simp only [Option.bind_eq_bind, Option.bind_some, hfirst, hsecond, hzero, UInt8.ofNat_toNat]
  rfl

theorem decodeLast_written : decodeLast (sextet (a.toNat / 4))
    (sextet (a.toNat % 4 * 16 + b.toNat / 16)) (sextet (b.toNat % 16 * 4 + c.toNat / 64))
    (sextet (c.toNat % 64)) = some [a, b, c] := by
  have hpad := sextet_ne_pad (c.toNat % 64) (Nat.mod_lt _ (by omega))
  rw [decodeLast, if_neg (fun h => hpad h.2), if_neg hpad, decodeFour_written]

end Written

theorem decodeBase64_base64 (bytes : List UInt8) : decodeBase64 (base64 bytes) = some bytes := by
  fun_induction base64 bytes with
  | case1 => rfl
  | case2 a => exact decodeLast_one a
  | case3 a b => exact decodeLast_two a b
  | case4 a b c rest ih =>
    cases rest with
    | nil => exact decodeLast_written a b c
    | cons d rest =>
      obtain ⟨e, tail, htail⟩ : ∃ e tail, base64 (d :: rest) = e :: tail := by
        rcases rest with _ | ⟨f, _ | ⟨g, rest⟩⟩ <;> exact ⟨_, _, rfl⟩
      rw [htail] at ih ⊢
      simp only [List.cons_append, List.nil_append, decodeBase64, decodeFour_written, ih,
        Option.bind_eq_bind, Option.bind_some]
      rfl

section Texts

def ascii (bytes : List UInt8) : String := String.ofList (bytes.map (fun b => Char.ofNat b.toNat))

def utf8 (s : String) : List UInt8 := s.toList.flatMap String.utf8EncodeChar

theorem utf8EncodeChar_ascii : ∀ n < 128,
    String.utf8EncodeChar (Char.ofNat n) = [UInt8.ofNat n] := by
  decide +kernel

theorem utf8_ascii {bytes : List UInt8} (h : ∀ b ∈ bytes, b.toNat < 128) :
    utf8 (ascii bytes) = bytes := by
  rw [utf8, ascii, String.toList_ofList]
  induction bytes with
  | nil => rfl
  | cons b bytes ih =>
    rw [List.map_cons, List.flatMap_cons, ih (fun c hc => h c (List.mem_cons_of_mem b hc)),
      utf8EncodeChar_ascii _ (h b List.mem_cons_self), UInt8.ofNat_toNat, List.singleton_append]

theorem sextet_lt (n : ℕ) : (sextet n).toNat < 128 := by
  have hall : ∀ b ∈ alphabet, b.toNat < 128 := by
    decide +kernel
  unfold sextet
  rw [List.getD_eq_getElem?_getD]
  cases hn : alphabet[n]? with
  | none => decide
  | some b => exact hall b (List.mem_of_getElem? hn)

theorem base64_lt (bytes : List UInt8) : ∀ b ∈ base64 bytes, b.toNat < 128 := by
  fun_induction base64 bytes with
  | case1 => simp
  | case2 a => simp [sextet_lt]
  | case3 a b => simp [sextet_lt]
  | case4 a b c rest ih =>
    intro e he
    rw [List.mem_append] at he
    rcases he with he | he
    · revert e
      simp [sextet_lt]
    · exact ih e he

theorem decodeBase64_text (bytes : List UInt8) :
    decodeBase64 (utf8 (ascii (base64 bytes))) = some bytes := by
  rw [utf8_ascii (base64_lt bytes), decodeBase64_base64]

end Texts
end TextEncodings
