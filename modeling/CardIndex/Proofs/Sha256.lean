import CardIndex.Sha256

namespace CardIndex

namespace Sha256

theorem toList_loop (bytes : ByteArray) (i : Nat) (taken : List UInt8) :
    ByteArray.toList.loop bytes i taken = taken.reverse ++ bytes.data.toList.drop i := by
  fun_induction ByteArray.toList.loop bytes i taken with
  | case1 i taken h ih =>
    have hi : i < bytes.data.toList.length := h
    have hbyte : bytes.get! i = bytes.data.toList[i] := by
      rw [ByteArray.get!, getElem!_pos bytes.data i h, Array.getElem_toList]
    rw [ih, List.drop_eq_getElem_cons hi, hbyte]
    simp
  | case2 i taken h =>
    rw [List.drop_eq_nil_of_le (by simpa using h)]
    simp

/-- Different texts have different bytes. -/
theorem utf8_injective (s s' : String) (h : s.toUTF8.toList = s'.toUTF8.toList) : s = s' := by
  rw [ByteArray.toList, ByteArray.toList, toList_loop, toList_loop] at h
  exact String.toByteArray_inj.1 (ByteArray.ext (Array.toList_inj.1 h))

theorem hexDigits_injective (b b' : UInt8)
    (high : Nat.digitChar (b.toNat / 16) = Nat.digitChar (b'.toNat / 16))
    (low : Nat.digitChar (b.toNat % 16) = Nat.digitChar (b'.toNat % 16)) : b = b' := by
  have hdigit : ∀ n < 16, ∀ m < 16, Nat.digitChar n = Nat.digitChar m → n = m := by decide
  have hb := b.toNat_lt
  have hb' := b'.toNat_lt
  have hhigh := hdigit _ (by omega) _ (by omega) high
  have hlow := hdigit _ (by omega) _ (by omega) low
  exact UInt8.toNat_inj.1 (by omega)

/-- Different bytes have different hexadecimal texts. -/
theorem hexText_injective (bytes bytes' : List UInt8) (h : hexText bytes = hexText bytes') : bytes = bytes' := by
  have hchars := congrArg String.toList h
  simp only [hexText, String.toList_ofList] at hchars
  clear h
  induction bytes generalizing bytes' with
  | nil =>
    cases bytes' with
    | nil => rfl
    | cons b' bytes' => simp at hchars
  | cons b bytes ih =>
    cases bytes' with
    | nil => simp at hchars
    | cons b' bytes' =>
      simp only [List.flatMap_cons, List.cons_append, List.nil_append, List.cons.injEq] at hchars
      obtain ⟨high, low, hrest⟩ := hchars
      rw [hexDigits_injective b b' high low, ih bytes' hrest]

end Sha256

end CardIndex
