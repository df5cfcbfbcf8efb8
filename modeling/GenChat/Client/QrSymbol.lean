import GenChat.Client.QrStream

/-!
# Symbols with one block

Up to version 5 the standard has one block at level L, as `createMatrix` has, and the drawn symbol
is read as its text.
-/
namespace GenChat.Client
open Library BitString
open QrCodeSvgGenerator

/-- The format information of a drawn symbol is right, so its blocks decide. -/
theorem read_drawn {version : Nat} (h : version ∈ [3, 4, 5, 6]) {b : QrReader.Blocks}
    (table : QrReader.blocksL version = some b) (bits : List Bool) :
    QrReader.read (drawn version bits) =
      if ∀ word ∈ QrReader.blocks b (QrReader.codewords (drawn version bits)),
          QrReader.correct b word then
        QrReader.segment
          ((QrReader.blocks b (QrReader.codewords (drawn version bits))).flatMap (·.take b.data))
      else none := by
  obtain ⟨first, second⟩ := format_drawn h bits
  have size : (drawn version bits).size = version * 4 + 17 := rfl
  have number : (version * 4 + 17 - 17) / 4 = version := by omega
  have square : (version * 4 + 17) % 4 = 1 := by omega
  rw [QrReader.read, size, number, table, Option.bind_eq_bind, Option.bind_some]
  simp only [first, second, square, true_and]

theorem map_getD_range (words : List GF256) {start count : Nat}
    (h : start + count ≤ words.length) :
    (List.range count).map (fun k => words.getD (start + k) 0) =
      (words.drop start).take count := by
  refine List.ext_getElem (by simp; omega) fun k bound _ => ?_
  rw [List.length_map, List.length_range] at bound
  rw [List.getElem_map, List.getElem_range, List.getElem_take, List.getElem_drop,
    List.getD_eq_getElem]

/-- A single block is all codewords. -/
theorem block_single {words : List GF256} {data check : Nat} (h : words.length = data + check) :
    QrReader.blocks ⟨1, data, check⟩ words = [words] := by
  have front : (List.range data).map (fun k => words.getD (0 + k) 0) = (words.drop 0).take data :=
    map_getD_range words (by omega)
  have back := map_getD_range words h.ge
  have one : QrReader.blocks ⟨1, data, check⟩ words =
      [QrReader.block ⟨1, data, check⟩ words 0] := rfl
  rw [one, QrReader.block]
  simp only [Nat.one_mul, Nat.add_zero]
  simp only [Nat.zero_add, List.drop_zero] at front
  rw [front, back, List.take_of_length_le (by simp; omega : _ ≤ check), List.take_append_drop]

theorem blocksL_single : ∀ version ∈ [3, 4, 5], QrReader.blocksL version =
    some ⟨1, getTotalDataBytes version, getEcBytesCount version⟩ := by decide

theorem correct_codeword (data : List UInt8) (version count total : Nat) :
    QrReader.correct ⟨count, total, getEcBytesCount version⟩ (codeword data version) :=
  fun _ few => eval_computeReedSolomon (getEcBytesCount_bounds version).1 few _

/-- The data codewords hold the text. -/
theorem segment_dataWords {data : List UInt8} {version : Nat}
    (fits : data.length + 2 ≤ getTotalDataBytes version) (short : data.length < 256) :
    QrReader.segment (dataWords data version) = some data := by
  refine segment_of_bits short ?_ ((flatMap_dataWords fits).trans (dataBits_eq fits))
  rfl

/-- A text that is short enough for its version is read back. -/
theorem read_single {data : List UInt8} {version : Nat} (h : version ∈ [3, 4, 5])
    (fits : data.length + 2 ≤ getTotalDataBytes version) (short : data.length < 256) :
    QrReader.read (drawn version (createDataBitstream data version)) = some data := by
  have drawable : version ∈ [3, 4, 5, 6] := List.mem_append_left [6] h
  have length := length_codeword fits
  rw [read_drawn drawable (blocksL_single version h), createDataBitstream_eq fits,
    codewords_drawn drawable length, block_single length, if_pos]
  · rw [List.flatMap_singleton, codeword, List.take_left' (length_dataWords fits)]
    exact segment_dataWords fits short
  · intro word mem
    rw [List.mem_singleton.mp mem]
    exact correct_codeword data version _ _

end GenChat.Client
