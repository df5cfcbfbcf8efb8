import GenChat.Client.QrPayload
import GenChat.Client.QrVersionSix

/-!
# Which texts are read from their symbol

Texts of up to 84 bytes are. From version 6 on the symbol has one block where the standard has two,
and no text of such a length is read back: up to 134 bytes the syndromes of the two blocks do not
vanish, and for more the symbol has no room.
-/
namespace GenChat.Client
open Library BitString
open QrCodeSvgGenerator

/-! ## Two blocks -/

theorem blocks_two (words : List GF256) :
    QrReader.blocks ⟨2, 68, 18⟩ words =
      [(List.range 86).map fun k => words.getD (2 * k + 0) 0,
        (List.range 86).map fun k => words.getD (2 * k + 1) 0] := by
  have block (i : Nat) : QrReader.block ⟨2, 68, 18⟩ words i =
      (List.range (68 + 18)).map fun k => words.getD (2 * k + i) 0 := by
    rw [List.range_add, List.map_append, List.map_map]
    rfl
  have two : QrReader.blocks ⟨2, 68, 18⟩ words =
      [QrReader.block ⟨2, 68, 18⟩ words 0, QrReader.block ⟨2, 68, 18⟩ words 1] := rfl
  rw [two, block, block]

/-- The data codewords of two blocks. -/
def dataTwo (words : List GF256) : List GF256 :=
  (List.range 68).map (fun k => words.getD (2 * k) 0) ++
    (List.range 68).map fun k => words.getD (2 * k + 1) 0

theorem flatMap_blocks_two (words : List GF256) :
    (QrReader.blocks ⟨2, 68, 18⟩ words).flatMap (·.take 68) = dataTwo words := by
  rw [blocks_two, List.flatMap_cons, List.flatMap_singleton, ← List.map_take, ← List.map_take,
    List.take_range]
  rfl

theorem length_dataTwo (words : List GF256) : (dataTwo words).length = 136 := by
  simp [dataTwo]

/-- The second block is at the odd places. -/
theorem getD_dataTwo (words : List GF256) {i : Nat} (low : 1 ≤ i) (high : i < 135) :
    (dataTwo words).getD i 0 = words.getD (2 * i % 135) 0 := by
  have inside : i < (dataTwo words).length := by
    rw [length_dataTwo]
    omega
  rw [List.getD_eq_getElem _ _ inside]
  simp only [dataTwo, List.getElem_append, List.length_map, List.length_range]
  split
  · next first =>
    have place : 2 * i % 135 = 2 * i := by omega
    rw [List.getElem_map, List.getElem_range, place]
  · next second =>
    have place : 2 * i % 135 = 2 * (i - 68) + 1 := by omega
    rw [List.getElem_map, List.getElem_range, place]

/-- Version 6 is read as two blocks. -/
theorem read_six {bits : List Bool} {data : List UInt8}
    (read : QrReader.read (drawn 6 bits) = some data) :
    (∀ b < 2, QrReader.correct ⟨2, 68, 18⟩ ((List.range 86).map fun k =>
        (QrReader.codewords (drawn 6 bits)).getD (2 * k + b) 0)) ∧
      QrReader.segment (dataTwo (QrReader.codewords (drawn 6 bits))) = some data := by
  have table : QrReader.blocksL 6 = some ⟨2, 68, 18⟩ := rfl
  rw [read_drawn (by decide) table, flatMap_blocks_two, blocks_two] at read
  split at read
  · next correct =>
    refine ⟨fun b few => ?_, read⟩
    have cases : b = 0 ∨ b = 1 := by omega
    rcases cases with rfl | rfl
    · exact correct _ List.mem_cons_self
    · exact correct _ (List.mem_cons_of_mem _ List.mem_cons_self)
  · cases read

/-- At most 134 bytes are read from version 6. -/
theorem length_of_read {bits : List Bool} {data : List UInt8}
    (read : QrReader.read (drawn 6 bits) = some data) : data.length ≤ 134 := by
  have two : 2 ≤ (dataTwo (QrReader.codewords (drawn 6 bits))).length := by
    rw [length_dataTwo]
    decide
  obtain ⟨rest, stream⟩ := bits_of_segment two (read_six read).2
  have length := length_flatMap_pushBits GF256.toNat (dataTwo (QrReader.codewords (drawn 6 bits)))
  rw [stream, List.length_append, length_segmentBits, length_dataTwo] at length
  omega

/-! ## The codewords of a text -/

theorem stream_six {data : List UInt8} (fits : data.length ≤ 134) :
    (dataWords data 6).flatMap (fun word => pushBits word.toNat 8) =
      segmentBits data ++ (List.replicate 4 false ++ padBytes (136 - (data.length + 2))) := by
  have room : data.length + 2 ≤ getTotalDataBytes 6 := by
    have total : getTotalDataBytes 6 = 136 := rfl
    omega
  exact (flatMap_dataWords room).trans (dataBits_eq room)

theorem getD_codeword {data : List UInt8} (fits : data.length ≤ 134) {i : Nat} (h : i < 136) :
    (codeword data 6).getD i 0 = (dataWords data 6).getD i 0 := by
  have total : getTotalDataBytes 6 = 136 := rfl
  have length : (dataWords data 6).length = 136 := length_dataWords (by omega)
  rw [codeword, List.getD_append _ _ _ _ (by omega)]

set_option maxRecDepth 20000

/-- Mode and length. -/
theorem first_word {data : List UInt8} (fits : data.length ≤ 134) (some : 1 ≤ data.length) :
    (dataWords data 6).getD 0 0 = .ofNat (64 + data.length / 16) := by
  have header : ∀ n < 256,
      BitString.number ((pushBits 4 4 ++ pushBits n 8).take 8) = 64 + n / 16 := by
    decide
  have front : (segmentBits data).take 8 = (pushBits 4 4 ++ pushBits data.length 8).take 8 := by
    rw [segmentBits, List.take_append_of_le_length]
    rw [List.length_append, length_pushBits, length_pushBits]
    decide
  have word := word_of_bits (i := 0) (stream_six fits) (by rw [length_segmentBits]; omega)
  rw [Nat.mul_zero, List.drop_zero, front, header data.length (by omega)] at word
  exact word

/-- The end of the text and the terminator. -/
theorem last_word {data : List UInt8} (fits : data.length ≤ 134) :
    ∃ h < 16, (dataWords data 6).getD (data.length + 1) 0 = .ofNat (16 * h) := by
  have stream := stream_six fits
  rw [← List.append_assoc] at stream
  have length := length_segmentBits data
  have word := word_of_bits (i := data.length + 1) stream
    (by rw [List.length_append, length, List.length_replicate]; omega)
  have four : ((segmentBits data).drop (8 * (data.length + 1))).length = 4 := by
    rw [List.length_drop]
    omega
  have none : BitString.number (List.replicate 4 false) = 0 := rfl
  rw [List.drop_append_of_le_length (by omega), List.take_of_length_le, number_append,
    List.length_replicate, none, Nat.add_zero, Nat.mul_comm] at word
  · have small : BitString.number ((segmentBits data).drop (8 * (data.length + 1))) < 2 ^ 4 :=
      four ▸ number_lt _
    exact ⟨_, small, word⟩
  · rw [List.length_append, four, List.length_replicate]

/-- The pad bytes. -/
theorem pad_word {data : List UInt8} (fits : data.length ≤ 134) {i : Nat}
    (past : data.length + 2 ≤ i) (h : i < 136) :
    (dataWords data 6).getD i 0 =
      .ofNat (if (i - (data.length + 2)) % 2 = 0 then 0xec else 0x11) := by
  have stream := stream_six fits
  rw [← List.append_assoc, ← List.append_nil (_ ++ padBytes _)] at stream
  have front : (segmentBits data ++ List.replicate 4 false).length = 8 * (data.length + 2) := by
    rw [List.length_append, length_segmentBits, List.length_replicate]
    ring
  have word := word_of_bits (i := i) stream
    (by rw [List.length_append, front, length_padBytes]; omega)
  have place : 8 * i = 8 * (data.length + 2) + 8 * (i - (data.length + 2)) := by omega
  have inside : i - (data.length + 2) < (List.range (136 - (data.length + 2))).length := by
    rw [List.length_range]
    omega
  have octet := octet_flatMap
    (fun i : Nat => length_pushBits (if i % 2 = 0 then 0xec else 0x11) 8) inside
  rw [List.getElem_range] at octet
  rw [place, ← List.drop_drop, List.drop_left' front, padBytes, octet] at word
  rw [word]
  split <;> rfl

/-! ## No text of more than 84 bytes is read -/

/-- A text that is read back repeats along the two blocks. -/
theorem getD_double {data : List UInt8} (fits : data.length ≤ 134)
    (read : QrReader.segment (dataTwo (codeword data 6)) = some data) {i : Nat} (low : 1 ≤ i)
    (high : i ≤ data.length) :
    (codeword data 6).getD i 0 = (codeword data 6).getD (2 * i % 135) 0 := by
  have two : 2 ≤ (dataTwo (codeword data 6)).length := by
    rw [length_dataTwo]
    decide
  obtain ⟨rest, stream⟩ := bits_of_segment two read
  have room : 8 * i + 8 ≤ (segmentBits data).length := by
    rw [length_segmentBits]
    omega
  rw [getD_codeword fits (by omega), ← getD_dataTwo _ low (by omega), word_of_bits stream room,
    word_of_bits (stream_six fits) room]

theorem readBack {data : List UInt8} (low : 1 ≤ data.length) (fits : data.length ≤ 134)
    (read : QrReader.read (drawn 6 (createDataBitstream data 6)) = some data) :
    ∃ h < 16, QrVersionSix.ReadBack (fun k => (codeword data 6).getD k 0) data.length h := by
  have totals : getTotalDataBytes 6 = 136 ∧ getEcBytesCount 6 = 36 := ⟨rfl, rfl⟩
  have room : data.length + 2 ≤ getTotalDataBytes 6 := by omega
  have length : (codeword data 6).length = 172 := length_codeword room
  have words : QrReader.codewords (drawn 6 (createDataBitstream data 6)) = codeword data 6 := by
    rw [createDataBitstream_eq room, codewords_drawn (by decide) (length_codeword room)]
  obtain ⟨correct, text⟩ := read_six read
  rw [words] at correct text
  obtain ⟨h, half, last⟩ := last_word fits
  refine ⟨h, half, fun i one inside => getD_double fits text one inside, ?_, ?_, ?_, ?_, ?_⟩
  · rw [getD_codeword fits (by decide), first_word fits low]
  · rw [getD_codeword fits (by omega), last]
  · intro i past inside
    rw [getD_codeword fits inside, pad_word fits past inside]
  · intro j few
    have whole : (List.range 172).map (fun k => (codeword data 6).getD (0 + k) 0) =
        codeword data 6 := by
      rw [map_getD_range _ (by omega), List.drop_zero, List.take_of_length_le length.le]
    simp only [Nat.zero_add] at whole
    have syndrome := correct_codeword data 6 1 136 j few
    rw [← whole, ReedSolomon.eval_map_range] at syndrome
    simp only [← pow_mul] at syndrome
    exact syndrome
  · intro b few j less
    have syndrome := correct b few j less
    rw [ReedSolomon.eval_map_range] at syndrome
    simp only [← pow_mul] at syndrome
    exact syndrome

theorem not_read_six {data : List UInt8} (long : 84 < data.length) :
    QrReader.read (drawn 6 (createDataBitstream data 6)) ≠ some data := by
  intro read
  have fits := length_of_read read
  obtain ⟨h, half, back⟩ := readBack (by omega) fits read
  exact back.absurd (by omega) fits half

theorem getVersion_single {n : Nat} (h : n ≤ 84) :
    getVersion n ∈ [3, 4, 5] ∧ n + 2 ≤ getTotalDataBytes (getVersion n) := by
  have totals : getTotalDataBytes 3 = 55 ∧ getTotalDataBytes 4 = 80 ∧ getTotalDataBytes 5 = 108 :=
    ⟨rfl, rfl, rfl⟩
  rw [getVersion, if_neg (by omega)]
  split_ifs
  · exact ⟨by decide, by omega⟩
  · exact ⟨by decide, by omega⟩
  · exact ⟨by decide, by omega⟩

theorem read_short {text : Units} (short : (encodeUnits text).length ≤ 84) :
    QrReader.read (createMatrix text) = some (encodeUnits text) := by
  obtain ⟨single, fits⟩ := getVersion_single short
  rw [createMatrix_eq]
  exact read_single single fits (by omega)

theorem not_read_long {text : Units} (long : 84 < (encodeUnits text).length) :
    QrReader.read (createMatrix text) ≠ some (encodeUnits text) := by
  rw [createMatrix_eq, getVersion, if_pos long]
  exact not_read_six long

theorem readable_iff (text : Units) :
    QrReader.read (createMatrix text) = some (encodeUnits text) ↔
      (encodeUnits text).length ≤ 84 :=
  ⟨fun read => Nat.le_of_not_lt fun long => not_read_long long read, read_short⟩

/-! ## The payload of two users -/

theorem length_scalar (c : Char) : 1 ≤ (String.utf8EncodeChar c).length := by
  rw [String.length_utf8EncodeChar]
  exact c.utf8Size_pos

/-- Two surrogates take four bytes. -/
theorem length_pair {u v : UInt16} (high : isHigh u = true) (low : isLow v = true) :
    2 ≤ (String.utf8EncodeChar
      (Char.ofNat (0x10000 + (u.toNat - 0xD800) * 0x400 + (v.toNat - 0xDC00)))).length := by
  rw [isHigh, Bool.and_eq_true_iff, decide_eq_true_iff, decide_eq_true_iff,
    UInt16.lt_iff_toNat_lt] at high
  rw [isLow, Bool.and_eq_true_iff, decide_eq_true_iff, decide_eq_true_iff,
    UInt16.lt_iff_toNat_lt] at low
  have highBound : u.toNat < 0xDC00 := high.2
  have lowBound : v.toNat < 0xE000 := low.2
  generalize number : 0x10000 + (u.toNat - 0xD800) * 0x400 + (v.toNat - 0xDC00) = n
  have valid : n.isValidChar := .inr ⟨by omega, by omega⟩
  have value : (Char.ofNat n).val.toNat = n := by
    rw [Char.ofNat, dif_pos valid]
    rfl
  have many : (Char.ofNat n).utf8Size ≠ 1 := fun one => by
    have small : (Char.ofNat n).val.toNat ≤ 127 := Char.utf8Size_eq_one_iff.mp one
    omega
  have some := (Char.ofNat n).utf8Size_pos
  rw [String.length_utf8EncodeChar]
  omega

/-- A text has at least as many bytes as code units. -/
theorem length_encodeUnits (text : Units) : text.length ≤ (encodeUnits text).length := by
  rw [encodeUnits]
  induction text using scalarValues.induct with
  | case1 => exact Nat.zero_le _
  | case2 u =>
    rw [scalarValues, List.flatMap_singleton]
    exact length_scalar _
  | case3 u v rest pair ih =>
    obtain ⟨high, low⟩ := Bool.and_eq_true_iff.mp pair
    rw [scalarValues, if_pos pair, List.flatMap_cons, List.length_append, List.length_cons,
      List.length_cons]
    have four := length_pair high low
    omega
  | case4 u v rest pair ih =>
    rw [scalarValues, if_neg pair, List.flatMap_cons, List.length_append, List.length_cons]
    have one := length_scalar (singleUnit u)
    omega

theorem length_units (text : String) : text.toList.length ≤ (units text).length := by
  rw [units, utf16, List.length_map]
  induction text.toList with
  | nil => exact Nat.zero_le _
  | cons c cs ih =>
    have one : 1 ≤ (utf16Char c).length := by
      rw [utf16Char]
      split <;> simp
    rw [List.flatMap_cons, List.length_append, List.length_cons]
    omega

/-- No payload with the 60 digits of a safety number is read. -/
theorem payload_not_read {userIdA userIdB number : String}
    (digits : 60 ≤ (compact number).toList.length) :
    QrReader.read (createMatrix (units (generateQrPayload userIdA userIdB number))) ≠
      some (encodeUnits (units (generateQrPayload userIdA userIdB number))) := by
  have bytes := (length_units (generateQrPayload userIdA userIdB number)).trans
    (length_encodeUnits _)
  have fixed : "genchat:safety?v=1&a=".toList.length = 21 ∧ "&b=".toList.length = 3 ∧
      "&num=".toList.length = 5 := by decide
  have length : 89 ≤ (generateQrPayload userIdA userIdB number).toList.length := by
    unfold generateQrPayload
    simp only [String.toList_append, List.length_append]
    rw [fixed.1, fixed.2.1, fixed.2.2]
    omega
  exact not_read_long (by omega)

theorem alice_and_bob_not_read :
    let payload := units (generateQrPayload "alice" "bob"
      "00000 11111 22222 33333 44444 55555 66666 77777 88888 99999 00000 11111")
    QrReader.read (createMatrix payload) ≠ some (encodeUnits payload) :=
  payload_not_read (by rfl)

end GenChat.Client
