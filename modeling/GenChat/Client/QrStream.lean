import GenChat.Client.QrPlacement
import GenChat.Client.QrTables
import Mathlib.Data.List.GetD

/-!
# The bit stream of a text

The stream of `createMatrix` is read back as codewords, and the segment in the data codewords as
the text.
-/
namespace GenChat.Client
open Library BitString
open QrCodeSvgGenerator

/-! ## Segments -/

/-- Mode, length and bytes. -/
def segmentBits (data : List UInt8) : List Bool :=
  pushBits 4 4 ++ pushBits data.length 8 ++ data.flatMap fun b => pushBits b.toNat 8

theorem length_pushBits (val len : Nat) : (pushBits val len).length = len := length_bits len val

theorem length_flatMap_pushBits {α : Type} (f : α → Nat) (xs : List α) :
    (xs.flatMap fun x => pushBits (f x) 8).length = 8 * xs.length := by
  induction xs with
  | nil => rfl
  | cons x xs ih =>
    rw [List.flatMap_cons, List.length_append, length_pushBits, ih, List.length_cons]
    ring

theorem length_segmentBits (data : List UInt8) :
    (segmentBits data).length = 12 + 8 * data.length := by
  rw [segmentBits, List.length_append, List.length_append, length_flatMap_pushBits,
    length_pushBits, length_pushBits]

theorem octets_bytes (data : List UInt8) :
    (octets (data.flatMap fun b => pushBits b.toNat 8)).map
      (fun byte => UInt8.ofNat (BitString.number byte)) = data := by
  have bytes := octets_flatMap (fun b : UInt8 => length_pushBits b.toNat 8) data []
  have none : octets [] = [] := rfl
  rw [List.append_nil, none, List.append_nil] at bytes
  have same (b : UInt8) : UInt8.ofNat (BitString.number (pushBits b.toNat 8)) = b := by
    rw [pushBits_eq, number_bits, Nat.mod_eq_of_lt b.toNat_lt, UInt8.ofNat_toNat]
  rw [bytes, List.map_map]
  exact (List.map_congr_left fun b _ => same b).trans (List.map_id _)

/-- A stream that begins with a segment and a terminator is read as its bytes. -/
theorem segment_of_bits {words : List GF256} {data : List UInt8} {rest : List Bool}
    (short : data.length < 256) (terminated : BitString.number (rest.take 4) = 0)
    (stream : words.flatMap (fun word => pushBits word.toNat 8) = segmentBits data ++ rest) :
    QrReader.segment words = some data := by
  have bits : words.flatMap (fun word => BitString.bits 8 word.toNat) =
      pushBits 4 4 ++ (pushBits data.length 8 ++
        (data.flatMap (fun b => pushBits b.toNat 8) ++ rest)) := by
    rw [← List.append_assoc, ← List.append_assoc]
    exact stream
  have mode : BitString.number (pushBits 4 4) = 4 := by decide
  have count : BitString.number (pushBits data.length 8) = data.length := by
    rw [pushBits_eq, number_bits]
    exact Nat.mod_eq_of_lt short
  have length := length_flatMap_pushBits UInt8.toNat data
  have body : (pushBits 4 4 ++ (pushBits data.length 8 ++
      (data.flatMap (fun b => pushBits b.toNat 8) ++ rest))).drop 12 =
      data.flatMap (fun b => pushBits b.toNat 8) ++ rest := by
    rw [← List.append_assoc]
    exact List.drop_left' (by rw [List.length_append, length_pushBits, length_pushBits])
  rw [QrReader.segment, bits, body, List.take_left' (length_pushBits 4 4),
    List.drop_left' (length_pushBits 4 4), List.take_left' (length_pushBits _ 8), count, mode,
    List.take_left' length, List.drop_left' length, octets_bytes, if_pos]
  refine ⟨rfl, ?_, terminated⟩
  rw [List.length_append, length]
  exact Nat.le_add_right _ _

theorem bytes_octets {bits : List Bool} (h : 8 ∣ bits.length) :
    ((octets bits).map fun byte => UInt8.ofNat (BitString.number byte)).flatMap
      (fun b => pushBits b.toNat 8) = bits := by
  obtain ⟨whole, lengths⟩ := octets_flatten h
  have same (byte : List Bool) (mem : byte ∈ octets bits) :
      pushBits (UInt8.ofNat (BitString.number byte)).toNat 8 = byte := by
    have eight := lengths byte mem
    have small : BitString.number byte < 2 ^ 8 := eight ▸ number_lt byte
    rw [UInt8.toNat_ofNat_of_lt' small, pushBits_eq, ← eight]
    exact bits_number byte
  rw [List.flatMap_map, List.flatMap_def, List.map_congr_left same, List.map_id', whole]

/-- What is read as a text begins with its segment. -/
theorem bits_of_segment {words : List GF256} {data : List UInt8} (two : 2 ≤ words.length)
    (read : QrReader.segment words = some data) :
    ∃ rest, words.flatMap (fun word => pushBits word.toNat 8) = segmentBits data ++ rest := by
  have length := length_flatMap_pushBits GF256.toNat words
  have same : words.flatMap (fun word => BitString.bits 8 word.toNat) =
      words.flatMap (fun word => pushBits word.toNat 8) := rfl
  rw [QrReader.segment, same] at read
  generalize words.flatMap (fun word => pushBits word.toNat 8) = stream at read length ⊢
  split at read
  · next holds =>
    obtain ⟨mode, room, -⟩ := holds
    have taken : ((stream.drop 12).take (8 * BitString.number ((stream.drop 4).take 8))).length =
        8 * BitString.number ((stream.drop 4).take 8) := by
      rw [List.length_take, Nat.min_eq_left room]
    have text := bytes_octets (Dvd.intro _ taken.symm)
    rw [Option.some.inj read] at text
    have bytes := length_flatMap_pushBits UInt8.toNat data
    have count : BitString.number ((stream.drop 4).take 8) = data.length := by
      rw [text, taken] at bytes
      omega
    have first : stream.take 4 = pushBits 4 4 := by
      refine number_injective ?_ mode
      rw [List.length_take, length_pushBits]
      omega
    have second : (stream.drop 4).take 8 = pushBits data.length 8 := by
      have eight : ((stream.drop 4).take 8).length = 8 := by
        rw [List.length_take, List.length_drop]
        omega
      have back := bits_number ((stream.drop 4).take 8)
      rw [eight, count] at back
      exact back.symm
    have tail : stream.drop 12 = (stream.drop 4).drop 8 := by rw [List.drop_drop]
    refine ⟨(stream.drop 12).drop (8 * data.length), ?_⟩
    rw [segmentBits, ← first, ← second, text, count, List.append_assoc _ _ (List.drop _ _),
      List.take_append_drop, tail, List.append_assoc, List.take_append_drop,
      List.take_append_drop]
  · cases read

/-- A codeword whose bits are known. -/
theorem word_of_bits {words : List GF256} {known rest : List Bool}
    (stream : words.flatMap (fun word => pushBits word.toNat 8) = known ++ rest) {i : Nat}
    (h : 8 * i + 8 ≤ known.length) :
    words.getD i 0 = .ofNat (BitString.number ((known.drop (8 * i)).take 8)) := by
  have length := length_flatMap_pushBits GF256.toNat words
  rw [stream, List.length_append] at length
  have inside : i < words.length := by omega
  have octet := octet_flatMap (fun word : GF256 => length_pushBits word.toNat 8) inside
  rw [stream, List.drop_append_of_le_length (by omega),
    List.take_append_of_le_length (by rw [List.length_drop]; omega)] at octet
  have value : BitString.number (pushBits words[i].toNat 8) = words[i].toNat := by
    rw [pushBits_eq, number_bits]
    exact Nat.mod_eq_of_lt words[i].toNat_lt
  rw [octet, value, GF256.ofNat_toNat, List.getD_eq_getElem]

/-! ## Data codewords -/

/-- A text with room for its terminator is filled up with pad bytes. -/
theorem dataBits_eq {data : List UInt8} {version : Nat}
    (fits : data.length + 2 ≤ getTotalDataBytes version) :
    dataBits data version = segmentBits data ++ (List.replicate 4 false ++
      padBytes (getTotalDataBytes version - (data.length + 2))) := by
  have terminator : min 4 (getTotalDataBytes version * 8 - (segmentBits data).length) = 4 := by
    rw [length_segmentBits]
    omega
  have whole : (segmentBits data ++ List.replicate 4 false).length = 8 * (data.length + 2) := by
    rw [List.length_append, length_segmentBits, List.length_replicate]
    ring
  have aligned : (8 - 8 * (data.length + 2) % 8) % 8 = 0 := by omega
  have pads : (getTotalDataBytes version * 8 - 8 * (data.length + 2) + 7) / 8 =
      getTotalDataBytes version - (data.length + 2) := by omega
  have start : dataBits data version =
      (let bits := segmentBits data ++
        List.replicate (min 4 (getTotalDataBytes version * 8 - (segmentBits data).length)) false
      let bits := bits ++ List.replicate ((8 - bits.length % 8) % 8) false
      bits ++ padBytes ((getTotalDataBytes version * 8 - bits.length + 7) / 8)) := rfl
  rw [start, terminator]
  dsimp only
  rw [whole, aligned, List.replicate_zero, List.append_nil, whole, pads, List.append_assoc]

theorem length_padBytes (count : Nat) : (padBytes count).length = 8 * count := by
  have bytes := length_flatMap_pushBits (fun i => if i % 2 = 0 then 0xec else 0x11)
    (List.range count)
  rwa [List.length_range] at bytes

theorem length_dataBits {data : List UInt8} {version : Nat}
    (fits : data.length + 2 ≤ getTotalDataBytes version) :
    (dataBits data version).length = 8 * getTotalDataBytes version := by
  rw [dataBits_eq fits, List.length_append, List.length_append, length_segmentBits,
    List.length_replicate, length_padBytes]
  omega

def dataWords (data : List UInt8) (version : Nat) : List GF256 := toBytes (dataBits data version)

theorem flatMap_dataWords {data : List UInt8} {version : Nat}
    (fits : data.length + 2 ≤ getTotalDataBytes version) :
    (dataWords data version).flatMap (fun word => pushBits word.toNat 8) =
      dataBits data version :=
  flatMap_toBytes (length_dataBits fits ▸ Nat.dvd_mul_right 8 _)

theorem length_dataWords {data : List UInt8} {version : Nat}
    (fits : data.length + 2 ≤ getTotalDataBytes version) :
    (dataWords data version).length = getTotalDataBytes version := by
  have bytes := length_flatMap_pushBits GF256.toNat (dataWords data version)
  rw [flatMap_dataWords fits, length_dataBits fits] at bytes
  omega

/-- Data and error correction. -/
def codeword (data : List UInt8) (version : Nat) : List GF256 :=
  dataWords data version ++ computeReedSolomon (dataWords data version) (getEcBytesCount version)

theorem getEcBytesCount_bounds (version : Nat) :
    getEcBytesCount version ≤ 510 ∧ 0 < getEcBytesCount version := by
  unfold getEcBytesCount
  split <;> decide

theorem length_codeword {data : List UInt8} {version : Nat}
    (fits : data.length + 2 ≤ getTotalDataBytes version) :
    (codeword data version).length = getTotalDataBytes version + getEcBytesCount version := by
  obtain ⟨few, some⟩ := getEcBytesCount_bounds version
  rw [codeword, List.length_append, length_dataWords fits, length_computeReedSolomon few some]

theorem createDataBitstream_eq {data : List UInt8} {version : Nat}
    (fits : data.length + 2 ≤ getTotalDataBytes version) :
    createDataBitstream data version =
      (codeword data version).flatMap fun word => pushBits word.toNat 8 := by
  rw [codeword, List.flatMap_append, flatMap_dataWords fits]
  rfl

/-! ## Codewords -/

set_option maxRecDepth 20000

/-- Seven modules are left after the codewords. -/
theorem length_encodingRegion : ∀ version ∈ [3, 4, 5, 6],
    (QrReader.encodingRegion (version * 4 + 17)).length =
      8 * (getTotalDataBytes version + getEcBytesCount version) + 7 := by decide

theorem mapIdx_getD {α : Type} (xs : List α) {bits : List Bool} {more : Nat}
    (length : xs.length = bits.length + more) :
    xs.mapIdx (fun i _ => bits.getD i false) = bits ++ List.replicate more false := by
  refine List.ext_getElem (by simpa using length) fun i _ bound => ?_
  rw [List.getElem_mapIdx, List.getElem_append]
  split
  · next inside => exact (List.getElem_eq_getD false).symm
  · next outside =>
    rw [List.getElem_replicate]
    exact List.getD_eq_default _ _ (Nat.le_of_not_lt outside)

/-- The codewords of a stream are read back. -/
theorem codewords_drawn {version : Nat} (h : version ∈ [3, 4, 5, 6]) {words : List GF256}
    (length : words.length = getTotalDataBytes version + getEcBytesCount version) :
    QrReader.codewords (drawn version (words.flatMap fun word => pushBits word.toNat 8)) =
      words := by
  have stream := length_flatMap_pushBits GF256.toNat words
  have room : (QrReader.encodingRegion (version * 4 + 17)).length =
      (words.flatMap fun word => pushBits word.toNat 8).length + 7 := by
    rw [length_encodingRegion version h, stream, length]
  have read := unmasked_drawn h (words.flatMap fun word => pushBits word.toNat 8)
  rw [mapIdx_getD _ room] at read
  have bytes := octets_flatMap (fun word : GF256 => length_pushBits word.toNat 8) words
    (List.replicate 7 false)
  have none : octets (List.replicate 7 false) = [] := rfl
  have same (word : GF256) : GF256.ofNat (BitString.number (pushBits word.toNat 8)) = word := by
    have whole : BitString.number (pushBits word.toNat 8) = word.toNat := by
      rw [pushBits_eq, number_bits]
      exact Nat.mod_eq_of_lt word.toNat_lt
    rw [whole, GF256.ofNat_toNat]
  have size : (drawn version (words.flatMap fun word => pushBits word.toNat 8)).size =
      version * 4 + 17 := rfl
  rw [QrReader.codewords, size, read, bytes, none, List.append_nil, List.map_map]
  exact (List.map_congr_left fun word _ => same word).trans (List.map_id _)

end GenChat.Client
