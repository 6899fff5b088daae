import Mathlib.Tactic.IntervalCases
import TableSteward.Text.Encoding

/-!
# Texts that are decoded as they were encoded

The leading byte of a character says how many bytes follow and holds its highest bits, and each of the others holds six
more.  So the bytes of every text decode to the text.
-/
set_option autoImplicit false

namespace TableSteward.Text

/-! ## One character -/

section Lead

variable {x : Nat}

theorem lead?_two (hlow : 2 ≤ x) (hhigh : x < 32) : lead? (x + 192) = some { more := 1, bits := x } := by
  interval_cases x <;> rfl

/-- The second byte keeps out forms that are too long, and surrogates. -/
theorem lead?_three (hx : x < 16) : lead? (x + 224) = some
    { more := 2, bits := x, low := if x = 0 then 0xA0 else 0x80, high := if x = 13 then 0x9F else 0xBF } := by
  interval_cases x <;> rfl

theorem lead?_four (hx : x < 5) : lead? (x + 240) = some
    { more := 3, bits := x, low := if x = 0 then 0x90 else 0x80, high := if x = 4 then 0x8F else 0xBF } := by
  interval_cases x <;> rfl

theorem continued_cons {bits more low high : Nat} (hx : x < 64) (hlow : low ≤ x + 128) (hhigh : x + 128 ≤ high)
    (rest : List UInt8) : continued bits (more + 1) low high (UInt8.ofNat (x + 128) :: rest) =
      ((continued (64 * bits + x) more 0x80 0xBF rest).1, (continued (64 * bits + x) more 0x80 0xBF rest).2 + 1) := by
  have hbyte : (UInt8.ofNat (x + 128)).toNat = x + 128 := UInt8.toNat_ofNat_of_lt (show _ < 256 by omega)
  simp only [continued, hbyte, Nat.add_sub_cancel, hlow, hhigh, decide_true, Bool.and_self, if_true]

end Lead

theorem nextChar_encode (c : Char) : ∃ b more, String.utf8EncodeChar c = b :: more ∧
    ∀ rest, nextChar b (more ++ rest) = (some c, more.length) := by
  obtain ⟨v, hv⟩ : ∃ v, v = c.toNat := ⟨_, rfl⟩
  have hvalid : v < 0xD800 ∨ 0xDFFF < v ∧ v < 0x110000 := hv ▸ c.valid
  have hchar : Char.ofNat v = c := hv ▸ Char.ofNat_toNat c
  have hcode : c.val.toNat = v := hv.symm
  rw [String.utf8EncodeChar, hcode]
  split_ifs with hone htwo hthree
  · have hbyte : (UInt8.ofNat v).toNat = v := UInt8.toNat_ofNat_of_lt (show _ < 256 by omega)
    refine ⟨_, [], rfl, ?_⟩
    intro rest
    rw [nextChar, hbyte, if_pos (by omega), hchar]
    rfl
  · refine ⟨_, _, rfl, ?_⟩
    intro rest
    have hbits : v / 64 % 32 = v / 64 := by omega
    have hbyte : (UInt8.ofNat (v / 64 + 192)).toNat = v / 64 + 192 := UInt8.toNat_ofNat_of_lt (show _ < 256 by omega)
    have hall : 64 * (v / 64) + v % 64 = v := by omega
    rw [hbits, nextChar, hbyte, if_neg (by omega), lead?_two (by omega) (by omega)]
    simp only [List.cons_append, List.nil_append]
    rw [continued_cons (by omega) (by omega) (by omega), continued, hall, hchar]
    rfl
  · refine ⟨_, _, rfl, ?_⟩
    intro rest
    have hbits : v / 4096 % 16 = v / 4096 := by omega
    have hbyte : (UInt8.ofNat (v / 4096 + 224)).toNat = v / 4096 + 224 :=
      UInt8.toNat_ofNat_of_lt (show _ < 256 by omega)
    have hall : 64 * (64 * (v / 4096) + v / 64 % 64) + v % 64 = v := by omega
    rw [hbits, nextChar, hbyte, if_neg (by omega), lead?_three (by omega)]
    simp only [List.cons_append, List.nil_append]
    rw [continued_cons (by omega) (by split <;> omega) (by split <;> omega),
      continued_cons (by omega) (by omega) (by omega), continued, hall, hchar]
    rfl
  · refine ⟨_, _, rfl, ?_⟩
    intro rest
    have hbits : v / 262144 % 8 = v / 262144 := by omega
    have hbyte : (UInt8.ofNat (v / 262144 + 240)).toNat = v / 262144 + 240 :=
      UInt8.toNat_ofNat_of_lt (show _ < 256 by omega)
    have hall : 64 * (64 * (64 * (v / 262144) + v / 4096 % 64) + v / 64 % 64) + v % 64 = v := by omega
    rw [hbits, nextChar, hbyte, if_neg (by omega), lead?_four (by omega)]
    simp only [List.cons_append, List.nil_append]
    rw [continued_cons (by omega) (by split <;> omega) (by split <;> omega),
      continued_cons (by omega) (by omega) (by omega), continued_cons (by omega) (by omega) (by omega), continued,
      hall, hchar]
    rfl

/-! ## Texts -/

theorem decodeGaps_encode : ∀ (cs : List Char) (fuel : Nat), (cs.flatMap String.utf8EncodeChar).length ≤ fuel →
    decodeGaps fuel (cs.flatMap String.utf8EncodeChar) = cs.map some := by
  intro cs
  induction cs with
  | nil =>
      intro fuel _
      cases fuel <;> rfl
  | cons c cs ih =>
      intro fuel hfuel
      obtain ⟨b, more, hbytes, hnext⟩ := nextChar_encode c
      rw [List.flatMap_cons, hbytes, List.cons_append] at hfuel ⊢
      rw [List.length_cons, List.length_append] at hfuel
      obtain ⟨fuel, rfl⟩ : ∃ n, fuel = n + 1 := ⟨fuel - 1, by omega⟩
      simp only [decodeGaps, hnext, List.drop_left, List.map_cons]
      rw [ih fuel (by omega)]

theorem toList_loop (bs : ByteArray) (i : Nat) (r : List UInt8) :
    ByteArray.toList.loop bs i r = r.reverse ++ bs.data.toList.drop i := by
  fun_induction ByteArray.toList.loop bs i r with
  | case1 i r hi ih =>
      have hlength : i < bs.data.toList.length := hi
      have hbyte : bs.get! i = bs.data.toList[i] := by
        have hget : bs.get! i = bs.data[i]! := rfl
        rw [hget, getElem!_pos bs.data i hi]
        rfl
      rw [ih, List.drop_eq_getElem_cons hlength, hbyte, List.reverse_cons, List.append_assoc,
        List.singleton_append]
  | case2 i r hi =>
      rw [List.drop_eq_nil_of_le (not_lt.mp hi), List.append_nil]

theorem encode_eq (s : String) : encode s = s.toList.flatMap String.utf8EncodeChar := by
  have hbytes : s.toUTF8 = s.toList.utf8Encode := by
    rw [String.toUTF8_eq_toByteArray, ← String.toByteArray_ofList, String.ofList_toList]
  rw [encode, hbytes, ByteArray.toList, toList_loop, List.utf8Encode,
    List.toList_data_toByteArray]
  rfl

theorem decode?_encode (s : String) : decode? (encode s) = some s.toList := by
  rw [decode?, encode_eq, decodeGaps_encode _ _ le_rfl]
  induction s.toList with
  | nil => rfl
  | cons c cs ih =>
      rw [List.map_cons, List.mapM_cons, ih]
      rfl

end TableSteward.Text
