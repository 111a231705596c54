import Mathlib.Data.List.Induction

/-!
# Encoded text

The bytes of a text in UTF-8, and the text of such bytes. Text in front of other bytes or behind
them makes them no better and no worse: they are read if they are read alone, as what they are read
as with that text beside it.
-/

namespace CollisionMesh.Text

set_option autoImplicit false

/-- The bytes of a text in UTF-8. -/
def encode (cs : List Char) : List UInt8 := (String.ofList cs).toUTF8.data.toList

/-- The text that has these bytes in UTF-8, if there is one. -/
def decode? (bytes : List UInt8) : Option (List Char) :=
  (String.fromUTF8? bytes.toByteArray).map String.toList

theorem encode_eq_flatMap (cs : List Char) : encode cs = cs.flatMap String.utf8EncodeChar := by
  rw [encode, String.toUTF8_eq_toByteArray, String.toByteArray_ofList, List.utf8Encode,
    List.toList_data_toByteArray]

@[simp] theorem encode_nil : encode [] = [] := by
  rw [encode_eq_flatMap, List.flatMap_nil]

theorem encode_cons (c : Char) (cs : List Char) :
    encode (c :: cs) = String.utf8EncodeChar c ++ encode cs := by
  rw [encode_eq_flatMap, encode_eq_flatMap, List.flatMap_cons]

theorem encode_append (cs ds : List Char) : encode (cs ++ ds) = encode cs ++ encode ds := by
  rw [encode_eq_flatMap, encode_eq_flatMap, encode_eq_flatMap, List.flatMap_append]

theorem toByteArray_encode (cs : List Char) : (encode cs).toByteArray = cs.utf8Encode := by
  rw [encode_eq_flatMap, List.utf8Encode]

theorem decode?_encode (cs : List Char) : decode? (encode cs) = some cs := by
  have hvalid : cs.utf8Encode.IsValidUTF8 := ByteArray.isValidUTF8_utf8Encode
  rw [decode?, toByteArray_encode, String.fromUTF8?, dif_pos hvalid, Option.map_some]
  congr 1
  exact String.toList_ofList

theorem decode?_eq_some_iff {bytes : List UInt8} {cs : List Char} :
    decode? bytes = some cs ↔ bytes = encode cs := by
  refine ⟨fun h => ?_, fun h => h ▸ decode?_encode cs⟩
  by_cases hvalid : bytes.toByteArray.IsValidUTF8
  · obtain ⟨ds, hds⟩ := hvalid
    have hbytes : bytes = encode ds := by
      have hlist :=
        congrArg (fun b : ByteArray => b.data.toList) (hds.trans (toByteArray_encode ds).symm)
      simpa only [List.toList_data_toByteArray] using hlist
    rw [hbytes, decode?_encode] at h
    rw [hbytes, Option.some.inj h]
  · rw [decode?, String.fromUTF8?, dif_neg hvalid] at h
    cases h

theorem decode?_eq_none_iff {bytes : List UInt8} :
    decode? bytes = none ↔ ∀ cs, bytes ≠ encode cs := by
  rw [Option.eq_none_iff_forall_ne_some]
  simp only [ne_eq, decode?_eq_some_iff]

theorem decode?_encode_append (lead : List Char) (bytes : List UInt8) :
    decode? (encode lead ++ bytes) = (decode? bytes).map (lead ++ ·) := by
  cases h : decode? bytes with
  | some cs =>
    rw [decode?_eq_some_iff.mp h, ← encode_append, decode?_encode]
    rfl
  | none =>
    rw [Option.map_none, decode?_eq_none_iff]
    intro cs hcs
    have hbytes := congrArg List.toByteArray hcs
    rw [List.toByteArray_append, toByteArray_encode, toByteArray_encode] at hbytes
    obtain ⟨rest, rfl⟩ := List.isPrefix_of_utf8Encode_append_eq_utf8Encode _ hbytes
    rw [encode_append] at hcs
    exact decode?_eq_none_iff.mp h rest (List.append_cancel_left hcs)

/-- No character ends in the bytes of another one: only the first byte of a
character can begin one. -/
theorem eq_nil_of_utf8EncodeChar_eq_append {c d : Char} {lead : List UInt8}
    (h : String.utf8EncodeChar d = lead ++ String.utf8EncodeChar c) : lead = [] := by
  have hc : 0 < (String.utf8EncodeChar c).length := by
    rw [String.length_utf8EncodeChar]
    exact c.utf8Size_pos
  have hd : lead.length < (String.utf8EncodeChar d).length := by
    rw [h, List.length_append]
    omega
  have hbyte : (String.utf8EncodeChar d)[lead.length] = (String.utf8EncodeChar c)[0] := by
    simp only [h, List.getElem_append_right (Nat.le_refl _), Nat.sub_self]
  have hfirst : ((String.utf8EncodeChar c)[0]).IsUTF8FirstByte :=
    UInt8.isUTF8FirstByte_getElem_utf8EncodeChar.mpr rfl
  rw [← hbyte] at hfirst
  exact List.length_eq_zero_iff.mp (UInt8.isUTF8FirstByte_getElem_utf8EncodeChar.mp hfirst)

theorem exists_of_append_utf8EncodeChar {bytes : List UInt8} {c : Char} {ds : List Char}
    (h : bytes ++ String.utf8EncodeChar c = encode ds) : ∃ cs, bytes = encode cs := by
  rcases List.eq_nil_or_concat ds with rfl | ⟨cs, d, rfl⟩
  · rw [encode_nil] at h
    exact absurd (List.append_eq_nil_iff.mp h).2 String.utf8EncodeChar_ne_nil
  · rw [List.concat_eq_append, encode_append, encode_cons, encode_nil, List.append_nil] at h
    rcases List.append_eq_append_iff.mp h with ⟨lead, hcs, hc⟩ | ⟨lead, hbytes, hd⟩
    · rw [eq_nil_of_utf8EncodeChar_eq_append hc, List.append_nil] at hcs
      exact ⟨cs, hcs.symm⟩
    · rw [eq_nil_of_utf8EncodeChar_eq_append hd, List.append_nil] at hbytes
      exact ⟨cs, hbytes⟩

theorem decode?_append_encode (bytes : List UInt8) (trail : List Char) :
    decode? (bytes ++ encode trail) = (decode? bytes).map (· ++ trail) := by
  cases h : decode? bytes with
  | some cs =>
    rw [decode?_eq_some_iff.mp h, ← encode_append, decode?_encode]
    rfl
  | none =>
    rw [Option.map_none, decode?_eq_none_iff]
    induction trail using List.reverseRecOn with
    | nil => simpa using decode?_eq_none_iff.mp h
    | append_singleton trail c ih =>
      intro ds hds
      rw [encode_append, encode_cons, encode_nil, List.append_nil, ← List.append_assoc] at hds
      obtain ⟨cs, hcs⟩ := exists_of_append_utf8EncodeChar hds
      exact ih cs hcs

theorem lineFeed_mem_utf8EncodeChar_iff (c : Char) :
    '\n'.toUInt8 ∈ String.utf8EncodeChar c ↔ c = '\n' := by
  have hbyte : ∀ n : Nat, '\n'.toUInt8 = UInt8.ofNat n ↔ n % 256 = 10 := by
    intro n
    rw [← UInt8.toNat_inj, UInt8.toNat_ofNat']
    exact eq_comm
  have hchar : c = '\n' ↔ c.val.toNat = 10 := by
    rw [← Char.toNat_inj]
    rfl
  rw [hchar, String.utf8EncodeChar]
  split
  · rw [List.mem_singleton, hbyte]
    omega
  · split
    · simp only [List.mem_cons, List.not_mem_nil, or_false, hbyte]
      omega
    · split <;>
      · simp only [List.mem_cons, List.not_mem_nil, or_false, hbyte]
        omega

theorem lineFeed_mem_encode_iff (cs : List Char) : '\n'.toUInt8 ∈ encode cs ↔ '\n' ∈ cs := by
  rw [encode_eq_flatMap, List.mem_flatMap]
  simp only [lineFeed_mem_utf8EncodeChar_iff, exists_eq_right]

end CollisionMesh.Text
