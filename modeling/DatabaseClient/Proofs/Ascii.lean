import DatabaseClient.Utf8

set_option autoImplicit false

namespace DatabaseClient

variable {text : String}

namespace Bytes

theorem map_char_ofAscii (ascii : ∀ c ∈ text.toList, c.toNat < 128) :
    (ofAscii text).map (fun b => Char.ofNat b.toNat) = text.toList := by
  rw [ofAscii, List.map_map]
  refine (List.map_congr_left ?_).trans (List.map_id _)
  intro c member
  have bound := ascii c member
  have byte : c.toNat % 256 = c.toNat := Nat.mod_eq_of_lt (by omega)
  simp [byte]

theorem ofAscii_inj {first second : String} (ascii : ∀ c ∈ first.toList, c.toNat < 128)
    (also : ∀ c ∈ second.toList, c.toNat < 128) (same : ofAscii first = ofAscii second) :
    first = second := by
  rw [← String.toList_inj, ← map_char_ofAscii ascii, ← map_char_ofAscii also, same]

theorem lt_of_mem_ofAscii (ascii : ∀ c ∈ text.toList, c.toNat < 128) {b : UInt8}
    (member : b ∈ ofAscii text) : b < 0x80 := by
  obtain ⟨c, present, rfl⟩ := List.mem_map.mp member
  have bound := ascii c present
  rw [UInt8.lt_iff_toNat_lt, UInt8.toNat_ofNat', Nat.mod_eq_of_lt (by omega)]
  exact bound

theorem ofAscii_append (first second : String) :
    ofAscii (first ++ second) = ofAscii first ++ ofAscii second := by
  simp [ofAscii]

end Bytes

namespace Utf8

theorem pieces_ascii {bytes : Bytes} (ascii : ∀ b ∈ bytes, b < 0x80) :
    pieces bytes = bytes.map fun b => .char (Char.ofNat b.toNat) := by
  unfold pieces
  induction bytes with
  | nil => rfl
  | cons b rest ih =>
    obtain ⟨first, others⟩ := List.forall_mem_cons.mp ascii
    simp [piecesFrom, start, first, ih others]

theorem lossy_ofAscii (ascii : ∀ c ∈ text.toList, c.toNat < 128) :
    lossy (Bytes.ofAscii text) = text := by
  have characters := Bytes.map_char_ofAscii ascii
  rw [lossy, pieces_ascii fun b => Bytes.lt_of_mem_ofAscii ascii, List.map_map]
  exact (congrArg String.ofList characters).trans String.ofList_toList

theorem toUTF8_ascii (ascii : ∀ c ∈ text.toList, c.toNat < 128) :
    text.toUTF8.data.toList = Bytes.ofAscii text := by
  have encoded (c : Char) (bound : c.toNat < 128) :
      String.utf8EncodeChar c = [UInt8.ofNat c.toNat] := by
    apply String.utf8EncodeChar_eq_singleton
    rw [Char.utf8Size_eq_one_iff, UInt32.le_iff_toNat_le]
    exact Nat.le_of_lt_succ bound
  have bytes : text.toUTF8.data.toList = text.toList.flatMap String.utf8EncodeChar := by
    rw [String.toUTF8_eq_toByteArray, ← text.ofList_toList, String.toByteArray_ofList,
      List.utf8Encode, List.toList_data_toByteArray, String.toList_ofList]
  rw [bytes, Bytes.ofAscii, List.map_eq_flatMap, List.flatMap_def, List.flatMap_def]
  congr 1
  exact List.map_congr_left fun c member => encoded c (ascii c member)

end Utf8

end DatabaseClient
