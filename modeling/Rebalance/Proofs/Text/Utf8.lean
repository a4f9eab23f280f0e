import Mathlib.Data.List.Basic

/-!
Text and its UTF-8 bytes: the bytes are read back as the text, and control bytes only come from
control characters, one from each.
-/

namespace Rebalance.Utf8

def encode (text : List Char) : List UInt8 := text.flatMap String.utf8EncodeChar

theorem encode_append (front back : List Char) :
    encode (front ++ back) = encode front ++ encode back := List.flatMap_append

theorem toList_loop (bytes : ByteArray) (i : Nat) (done : List UInt8) :
    ByteArray.toList.loop bytes i done = done.reverse ++ bytes.data.toList.drop i := by
  induction i, done using ByteArray.toList.loop.induct bytes with
  | case1 i done inside ih =>
    have bound : i < bytes.data.toList.length := inside
    have here : bytes.get! i = bytes.data.toList[i] := getElem!_pos bytes.data i inside
    rw [ByteArray.toList.loop, if_pos inside, ih, List.drop_eq_getElem_cons bound, here,
      List.reverse_cons, List.append_assoc, List.singleton_append]
  | case2 i done outside =>
    have ended : bytes.data.toList.length ≤ i := Nat.le_of_not_lt outside
    rw [ByteArray.toList.loop, if_neg outside, List.drop_eq_nil_of_le ended, List.append_nil]

theorem toList_toUTF8_ofList (text : List Char) :
    (String.ofList text).toUTF8.toList = encode text := by
  have bytes : (String.ofList text).toUTF8 = (encode text).toByteArray := String.toByteArray_ofList
  rw [bytes, ByteArray.toList, toList_loop, List.reverse_nil, List.nil_append, List.drop_zero,
    List.toList_data_toByteArray]

theorem fromUTF8?_encode (text : List Char) :
    String.fromUTF8? ⟨(encode text).toArray⟩ = some (String.ofList text) := by
  have bytes : (⟨(encode text).toArray⟩ : ByteArray) = text.utf8Encode :=
    ByteArray.ext (List.data_toByteArray).symm
  rw [bytes, String.fromUTF8?, dif_pos ByteArray.isValidUTF8_utf8Encode]
  exact congrArg some (String.toByteArray_inj.1 String.toByteArray_ofList.symm)

theorem encode_toList (text : String) : encode text.toList = text.toByteArray.data.toList := by
  rw [← String.utf8Encode_toList, List.utf8Encode, List.data_toByteArray, encode]

theorem fromUTF8?_eq_some_iff {bytes : List UInt8} {text : String} :
    String.fromUTF8? ⟨bytes.toArray⟩ = some text ↔ encode text.toList = bytes := by
  constructor
  · intro read
    rw [encode_toList]
    unfold String.fromUTF8? at read
    split at read
    · cases read
      rfl
    · cases read
  · rintro rfl
    rw [fromUTF8?_encode, String.ofList_toList]

theorem le_toNat_of_mem_utf8EncodeChar {c : Char} {b : UInt8} (printed : 32 ≤ c.toNat)
    (member : b ∈ String.utf8EncodeChar c) : 32 ≤ b.toNat := by
  have printed' : 32 ≤ c.val.toNat := printed
  unfold String.utf8EncodeChar at member
  dsimp only at member
  split at member
  · rw [List.mem_singleton] at member
    rw [member, UInt8.toNat_ofNat']
    omega
  · split at member
    · simp only [List.mem_cons, List.not_mem_nil, or_false] at member
      rcases member with rfl | rfl <;> rw [UInt8.toNat_ofNat'] <;> omega
    · split at member
      · simp only [List.mem_cons, List.not_mem_nil, or_false] at member
        rcases member with rfl | rfl | rfl <;> rw [UInt8.toNat_ofNat'] <;> omega
      · simp only [List.mem_cons, List.not_mem_nil, or_false] at member
        rcases member with rfl | rfl | rfl | rfl <;> rw [UInt8.toNat_ofNat'] <;> omega

def Printed (text : List Char) : Prop := ∀ c ∈ text, 32 ≤ c.toNat

theorem Printed.append {front back : List Char} (first : Printed front) (second : Printed back) :
    Printed (front ++ back) := List.forall_mem_append.2 ⟨first, second⟩

theorem Printed.cons {c : Char} {text : List Char} (printed : Printed text) (first : 32 ≤ c.toNat) :
    Printed (c :: text) := List.forall_mem_cons.2 ⟨first, printed⟩

theorem printed_nil : Printed [] := List.forall_mem_nil _

theorem le_toNat_of_mem_encode {text : List Char} (printed : Printed text) {b : UInt8}
    (member : b ∈ encode text) : 32 ≤ b.toNat := by
  obtain ⟨c, listed, inside⟩ := List.mem_flatMap.1 member
  exact le_toNat_of_mem_utf8EncodeChar (printed c listed) inside

theorem of_mem_utf8EncodeChar {c : Char} {b : UInt8} (control : b.toNat < 32)
    (member : b ∈ String.utf8EncodeChar c) :
    c.toNat = b.toNat ∧ String.utf8EncodeChar c = [b] := by
  have low : c.toNat < 32 := by
    by_contra printed
    have above := le_toNat_of_mem_utf8EncodeChar (Nat.le_of_not_lt printed) member
    exact Nat.not_lt.2 above control
  have ascii : c.val ≤ 127 :=
    UInt32.le_iff_toNat_le.2 (Nat.le_trans (Nat.le_of_lt low) (by decide))
  have single := String.utf8EncodeChar_eq_singleton (Char.utf8Size_eq_one_iff.2 ascii)
  rw [single, List.mem_singleton] at member
  subst member
  refine ⟨?_, single⟩
  rw [UInt32.toNat_toUInt8]
  exact (Nat.mod_eq_of_lt (Nat.lt_trans low (by decide))).symm

theorem exists_of_mem_encode {text : List Char} {b : UInt8} (control : b.toNat < 32)
    (member : b ∈ encode text) : ∃ c ∈ text, c.toNat = b.toNat := by
  obtain ⟨c, listed, inside⟩ := List.mem_flatMap.1 member
  exact ⟨c, listed, (of_mem_utf8EncodeChar control inside).1⟩

theorem exists_of_encode_eq_append {text : List Char} {row : List UInt8} {b : UInt8}
    (control : b.toNat < 32) (same : encode text = row ++ [b]) :
    ∃ front c, text = front ++ [c] ∧ c.toNat = b.toNat ∧ encode front = row := by
  rcases List.eq_nil_or_concat' text with rfl | ⟨front, c, rfl⟩
  · exact absurd same.symm (List.append_ne_nil_of_right_ne_nil row (List.cons_ne_nil b []))
  · have coded : encode [c] = String.utf8EncodeChar c := List.flatMap_singleton ..
    rw [encode_append, coded] at same
    have last : (String.utf8EncodeChar c).getLast? = some b := by
      rw [← List.getLast?_append_of_ne_nil (encode front) String.utf8EncodeChar_ne_nil, same,
        List.getLast?_concat]
    obtain ⟨value, single⟩ := of_mem_utf8EncodeChar control (List.mem_of_getLast? last)
    rw [single] at same
    exact ⟨front, c, rfl, value, List.append_cancel_right same⟩

end Rebalance.Utf8
