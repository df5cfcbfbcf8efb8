import GenChat.Client.QrSymbol
import GenChat.Library.GaloisField

/-!
# Version 6 as two blocks

At level L the standard has two blocks in version 6, whose codewords take turns; `createMatrix`
writes one codeword of twice the length. If a text were read all the same, its bytes would repeat
along doubling modulo 135, until they reach the padding. A combination of all syndromes in which no
error correction occurs then has a value other than zero, for every length of the text.
-/
namespace GenChat.Client.QrVersionSix
open Library GF256

/-! ## A combination of all syndromes -/

/-- Logarithms of the multipliers for the codeword of `createMatrix`, one for each power. -/
def codeLogs : List Nat :=
  [173, 54, 193, 185, 109, 23, 79, 142, 158, 227, 33, 44, 94, 77, 122, 176, 16, 82, 233, 152, 188,
    245, 106, 73, 159, 52, 231, 110, 155, 93, 42, 253, 180, 209, 55, 221]

/-- Logarithms of the multipliers for the two blocks of the standard. -/
def blockLogs (block : Nat) : List Nat :=
  if block = 0 then
    [92, 74, 113, 137, 231, 183, 84, 82, 102, 213, 239, 248, 130, 79, 109, 194, 55, 52]
  else [6, 4, 95, 191, 73, 156, 27, 222, 130, 7, 207, 218, 146, 100, 183, 8, 128, 55]

/-- The factor of a codeword in the combination. -/
def weight (k : Nat) : GF256 :=
  (∑ j ∈ Finset.range 36, alpha ^ (codeLogs.getD j 0 + j * (171 - k))) +
    ∑ j ∈ Finset.range 18, alpha ^ ((blockLogs (k % 2)).getD j 0 + j * (85 - k / 2))

def weightNat (k : Nat) : Nat :=
  (List.range 36).foldl (fun sum j => sum ^^^ powerNat (codeLogs.getD j 0 + j * (171 - k))) 0 ^^^
    (List.range 18).foldl
      (fun sum j => sum ^^^ powerNat ((blockLogs (k % 2)).getD j 0 + j * (85 - k / 2))) 0

theorem toNat_weight (k : Nat) : (weight k).toNat = weightNat k := by
  rw [weight, toNat_add, toNat_sum, toNat_sum]
  simp only [toNat_alpha_pow_table]
  rfl

/-- No error correction occurs. -/
theorem weight_check {k : Nat} (h : k < 36) : weight (136 + k) = 0 := by
  have all : ∀ k < 36, weightNat (136 + k) = 0 := by decide +kernel
  refine toNat_injective ?_
  rw [toNat_weight, all k h]
  rfl

theorem sum_combination {m n : Nat} {d c : Nat → GF256} {x : Nat → Nat → GF256}
    (zero : ∀ j < m, ∑ k ∈ Finset.range n, d k * x j k = 0) :
    ∑ k ∈ Finset.range n, d k * ∑ j ∈ Finset.range m, c j * x j k = 0 := by
  calc ∑ k ∈ Finset.range n, d k * ∑ j ∈ Finset.range m, c j * x j k
    _ = ∑ j ∈ Finset.range m, c j * ∑ k ∈ Finset.range n, d k * x j k := by
      simp only [Finset.mul_sum]
      rw [Finset.sum_comm]
      refine Finset.sum_congr rfl fun j _ => Finset.sum_congr rfl fun k _ => ?_
      ring
    _ = 0 := Finset.sum_eq_zero fun j mem => by
      rw [zero j (Finset.mem_range.mp mem), mul_zero]

theorem sum_halves (f : Nat → GF256) (m : Nat) : ∑ k ∈ Finset.range (2 * m), f k =
    ∑ k ∈ Finset.range m, f (2 * k) + ∑ k ∈ Finset.range m, f (2 * k + 1) := by
  induction m with
  | zero => exact (add_zero 0).symm
  | succ m ih =>
    rw [Nat.mul_succ, Finset.sum_range_succ, Finset.sum_range_succ, ih, Finset.sum_range_succ,
      Finset.sum_range_succ]
    ring

/-! ## What a text that is read would satisfy -/

/-- The codewords of a text of `n` bytes that is read back, although they are split into two
blocks. The last byte of the text ends in the higher half of a codeword. -/
structure ReadBack (d : Nat → GF256) (n h : Nat) : Prop where
  double : ∀ i, 1 ≤ i → i ≤ n → d i = d (2 * i % 135)
  first : d 0 = ofNat (64 + n / 16)
  last : d (n + 1) = ofNat (16 * h)
  pads : ∀ i, n + 2 ≤ i → i < 136 → d i = ofNat (if (i - (n + 2)) % 2 = 0 then 0xec else 0x11)
  code : ∀ j < 36, ∑ k ∈ Finset.range 172, d k * alpha ^ (j * (171 - k)) = 0
  block : ∀ b < 2, ∀ j < 18, ∑ k ∈ Finset.range 86, d (2 * k + b) * alpha ^ (j * (85 - k)) = 0

theorem ReadBack.sum_weight {d : Nat → GF256} {n h : Nat} (back : ReadBack d n h) :
    ∑ k ∈ Finset.range 136, d k * weight k = 0 := by
  have code := sum_combination (c := fun j => alpha ^ codeLogs.getD j 0) back.code
  have even := sum_combination (c := fun j => alpha ^ (blockLogs 0).getD j 0)
    (back.block 0 (by decide))
  have odd := sum_combination (c := fun j => alpha ^ (blockLogs 1).getD j 0)
    (back.block 1 (by decide))
  have blocks := sum_halves (fun k => d k * ∑ j ∈ Finset.range 18,
    alpha ^ (blockLogs (k % 2)).getD j 0 * alpha ^ (j * (85 - k / 2))) 86
  have half (k : Nat) : 2 * k % 2 = 0 ∧ 2 * k / 2 = k ∧ (2 * k + 1) % 2 = 1 ∧
      (2 * k + 1) / 2 = k := by omega
  simp only [half] at blocks
  simp only [Nat.add_zero] at even
  rw [even, odd, add_zero] at blocks
  have whole : ∑ k ∈ Finset.range (136 + 36), d k * weight k = 0 := by
    simp only [weight, pow_add, mul_add, Finset.sum_add_distrib]
    exact (congrArg₂ (· + ·) code blocks).trans (add_zero 0)
  have check : ∑ k ∈ Finset.range 36, d (136 + k) * weight (136 + k) = 0 :=
    Finset.sum_eq_zero fun k mem => by
      rw [weight_check (Finset.mem_range.mp mem), mul_zero]
  rw [Finset.sum_range_add, check, add_zero] at whole
  exact whole

/-! ## Doubling modulo 135 -/

def weightTable : Nat := pack ((List.range 136).map weightNat)

def tabled (i : Nat) : GF256 := ofNat (byteAt weightTable i)

theorem tabled_eq {i : Nat} (h : i < 136) : tabled i = weight i := by
  have small : ∀ byte ∈ (List.range 136).map weightNat, byte < 256 := by
    intro byte mem
    obtain ⟨k, -, rfl⟩ := List.mem_map.mp mem
    rw [← toNat_weight]
    exact toNat_lt _
  have entry : byteAt weightTable i = weightNat i := by
    rw [weightTable, byteAt_pack small, List.getD_eq_getElem _ _ (by simpa using h),
      List.getElem_map, List.getElem_range]
  rw [tabled, entry, ← toNat_weight, ofNat_toNat]

/-- The largest element of a cycle is the last one. -/
def cycles : List (List Nat) :=
  [[121, 107, 79, 23, 46, 92, 49, 98, 61, 122, 109, 83, 31, 62, 124, 113, 91, 47, 94, 53, 106, 77,
     19, 38, 76, 17, 34, 68, 1, 2, 4, 8, 16, 32, 64, 128],
   [93, 51, 102, 69, 3, 6, 12, 24, 48, 96, 57, 114],
   [125, 115, 95, 55, 110, 85, 35, 70, 5, 10, 20, 40, 80, 25, 50, 100, 65, 130],
   [133, 131, 127, 119, 103, 71, 7, 14, 28, 56, 112, 89, 43, 86, 37, 74, 13, 26, 52, 104, 73, 11,
     22, 44, 88, 41, 82, 29, 58, 116, 97, 59, 118, 101, 67, 134],
   [9, 18, 36, 72],
   [105, 75, 15, 30, 60, 120],
   [129, 123, 111, 87, 39, 78, 21, 42, 84, 33, 66, 132],
   [81, 27, 54, 108],
   [45, 90],
   [117, 99, 63, 126]]

theorem cycles_perm : (List.range 136).Perm (0 :: (cycles.flatten ++ [135])) := by decide

/-- What the proofs need of a cycle. -/
def Cyclic (c : List Nat) : Prop :=
  c.IsChain (fun i j => j = 2 * i % 135) ∧ (∀ i ∈ c, 1 ≤ i ∧ i < 135 ∧ i ≤ c.getLastD 0) ∧
    (c.map tabled).sum = 0

instance (c : List Nat) : Decidable (Cyclic c) := inferInstanceAs (Decidable (_ ∧ _ ∧ _))

set_option maxRecDepth 20000

theorem cycles_cyclic : ∀ c ∈ cycles, Cyclic c := by decide

/-- Along a cycle the weights are collected until an element past `n` is reached. -/
def carry (n : Nat) : GF256 → List Nat → List (Nat × GF256)
  | _, [] => []
  | sum, i :: rest =>
    if n < i then (i, sum + tabled i) :: carry n 0 rest else carry n (sum + tabled i) rest

def entries (n : Nat) : List (Nat × GF256) := cycles.flatMap (carry n 0) ++ [(135, tabled 135)]

theorem mem_carry {n : Nat} {sum : GF256} {c : List Nat} {e : Nat × GF256}
    (mem : e ∈ carry n sum c) : n < e.1 ∧ e.1 ∈ c := by
  induction c generalizing sum with
  | nil => cases mem
  | cons i rest ih =>
    rw [carry] at mem
    split at mem
    · next past =>
      rcases List.mem_cons.mp mem with rfl | mem
      · exact ⟨past, List.mem_cons_self⟩
      · exact ⟨(ih mem).1, List.mem_cons_of_mem i (ih mem).2⟩
    · exact ⟨(ih mem).1, List.mem_cons_of_mem i (ih mem).2⟩

theorem carry_within {c : List Nat} (within : ∀ j ∈ c, j ≤ n) (sum : GF256) :
    carry n sum c = [] := by
  induction c generalizing sum with
  | nil => rfl
  | cons i rest ih =>
    rw [carry, if_neg (Nat.not_lt.mpr (within i List.mem_cons_self))]
    exact ih (fun j mem => within j (List.mem_cons_of_mem i mem)) _

section Sums
variable {d : Nat → GF256} {n : Nat} (double : ∀ i, 1 ≤ i → i ≤ n → d i = d (2 * i % 135))
include double

/-- Elements up to `n` pass their weight on to the next one. -/
theorem sum_carry {i : Nat} {rest : List Nat} (sum : GF256)
    (chain : (i :: rest).IsChain fun i j => j = 2 * i % 135) (positive : ∀ j ∈ i :: rest, 1 ≤ j)
    (past : n < (i :: rest).getLastD 0) :
    sum * d i + ((i :: rest).map fun j => tabled j * d j).sum =
      ((carry n sum (i :: rest)).map fun e => e.2 * d e.1).sum := by
  induction rest generalizing i sum with
  | nil =>
    have emitted : carry n sum [i] = [(i, sum + tabled i)] := if_pos past
    rw [emitted]
    simp only [List.map_cons, List.map_nil, List.sum_cons, List.sum_nil]
    ring
  | cons j rest ih =>
    obtain ⟨next, chain⟩ := List.isChain_cons_cons.mp chain
    have later (sum : GF256) := ih sum chain (fun k mem => positive k (List.mem_cons_of_mem i mem))
      past
    rw [carry, List.map_cons, List.sum_cons]
    split
    · have step := later 0
      rw [zero_mul, zero_add] at step
      rw [step, List.map_cons, List.sum_cons]
      ring
    · next within =>
      have same : d i = d j :=
        next ▸ double i (positive i List.mem_cons_self) (Nat.le_of_not_lt within)
      rw [← later, same]
      ring

/-- On a cycle that does not get past `n` all elements are equal. -/
theorem sum_within {i : Nat} {rest : List Nat}
    (chain : (i :: rest).IsChain fun i j => j = 2 * i % 135)
    (within : ∀ j ∈ i :: rest, 1 ≤ j ∧ j ≤ n) :
    ((i :: rest).map fun j => tabled j * d j).sum = ((i :: rest).map tabled).sum * d i := by
  induction rest generalizing i with
  | nil => simp
  | cons j rest ih =>
    obtain ⟨next, chain⟩ := List.isChain_cons_cons.mp chain
    obtain ⟨low, high⟩ := within i List.mem_cons_self
    have same : d i = d j := next ▸ double i low high
    rw [List.map_cons, List.sum_cons, ih chain fun k mem => within k (List.mem_cons_of_mem i mem),
      List.map_cons (l := j :: rest), List.sum_cons, same]
    ring

theorem sum_cycle {c : List Nat} (cyclic : Cyclic c) :
    (c.map fun j => tabled j * d j).sum = ((carry n 0 c).map fun e => e.2 * d e.1).sum := by
  obtain ⟨chain, bounds, zero⟩ := cyclic
  cases c with
  | nil => rfl
  | cons i rest =>
    by_cases past : n < (i :: rest).getLastD 0
    · have collected := sum_carry double 0 chain (fun j mem => (bounds j mem).1) past
      rwa [zero_mul, zero_add] at collected
    · have within (j : Nat) (mem : j ∈ i :: rest) : 1 ≤ j ∧ j ≤ n :=
        ⟨(bounds j mem).1, (bounds j mem).2.2.trans (Nat.le_of_not_lt past)⟩
      rw [sum_within double chain within, zero, carry_within fun j mem => (within j mem).2]
      simp

/-- The weights at the codewords past the text. -/
theorem sum_entries : ∑ k ∈ Finset.range 136, d k * weight k =
    tabled 0 * d 0 + ((entries n).map fun e => e.2 * d e.1).sum := by
  have list (f : Nat → GF256) (m : Nat) :
      ∑ k ∈ Finset.range m, f k = ((List.range m).map f).sum := by
    induction m with
    | zero => rfl
    | succ m ih => rw [Finset.sum_range_succ, List.sum_range_succ, ih]
  have weights : ∑ k ∈ Finset.range 136, d k * weight k =
      ∑ k ∈ Finset.range 136, tabled k * d k :=
    Finset.sum_congr rfl fun k mem => by
      rw [tabled_eq (Finset.mem_range.mp mem), mul_comm]
  have along (cs : List (List Nat)) (cyclic : ∀ c ∈ cs, Cyclic c) :
      (cs.flatten.map fun j => tabled j * d j).sum =
        ((cs.flatMap (carry n 0)).map fun e => e.2 * d e.1).sum := by
    induction cs with
    | nil => rfl
    | cons c cs ih =>
      rw [List.flatten_cons, List.map_append, List.sum_append, List.flatMap_cons, List.map_append,
        List.sum_append, sum_cycle double (cyclic c List.mem_cons_self),
        ih fun c mem => cyclic c (List.mem_cons_of_mem _ mem)]
  rw [weights, list, (cycles_perm.map fun k => tabled k * d k).sum_eq, List.map_cons,
    List.sum_cons, List.map_append, List.sum_append, along cycles cycles_cyclic, entries,
    List.map_append, List.sum_append]
  rfl

end Sums

/-! ## No text is read -/

/-- Pad bytes of both kinds, and the codeword with the end of the text. -/
def kind (n i : Nat) : Nat := if i = n + 1 then 2 else (i - (n + 2)) % 2

def byteOf (h q : Nat) : Nat := if q = 0 then 0xec else if q = 1 then 0x11 else 16 * h

def share (n q : Nat) : GF256 := (((entries n).filter (kind n ·.1 = q)).map Prod.snd).sum

theorem sum_kinds (es : List (Nat × GF256)) (n h : Nat) :
    (es.map fun e => e.2 * ofNat (byteOf h (kind n e.1))).sum =
      ((es.filter (kind n ·.1 = 0)).map Prod.snd).sum * ofNat 0xec +
        ((es.filter (kind n ·.1 = 1)).map Prod.snd).sum * ofNat 0x11 +
          ((es.filter (kind n ·.1 = 2)).map Prod.snd).sum * ofNat (16 * h) := by
  induction es with
  | nil => simp
  | cons e es ih =>
    have kinds : kind n e.1 = 0 ∨ kind n e.1 = 1 ∨ kind n e.1 = 2 := by
      rw [kind]
      split <;> omega
    rw [List.map_cons, List.sum_cons, ih]
    rcases kinds with kind | kind | kind <;> simp [kind, byteOf] <;> ring

def mismatch (n h : Nat) : Nat :=
  mulNat (tabled 0).toNat (64 + n / 16) ^^^ mulNat (share n 0).toNat 0xec ^^^
    mulNat (share n 1).toNat 0x11 ^^^ mulNat (share n 2).toNat (16 * h)

/-- For every length and every end of the text. -/
theorem mismatch_ne_zero : ∀ n < 50, ∀ h < 16, mismatch (85 + n) h ≠ 0 := by decide +kernel

theorem ReadBack.entry {d : Nat → GF256} {n h : Nat} (back : ReadBack d n h) {i : Nat}
    (past : n < i) (inside : i < 136) : d i = ofNat (byteOf h (kind n i)) := by
  rw [kind]
  split
  · next last =>
    rw [last]
    exact back.last
  · next other =>
    rw [back.pads i (by omega) inside, byteOf]
    rcases Nat.mod_two_eq_zero_or_one (i - (n + 2)) with even | odd
    · rw [if_pos even, if_pos even]
    · rw [if_neg (by omega), if_neg (by omega), if_pos odd]

theorem ReadBack.absurd {d : Nat → GF256} {n h : Nat} (low : 85 ≤ n) (high : n ≤ 134)
    (half : h < 16) (back : ReadBack d n h) : False := by
  have zero := back.sum_weight
  have entry (e : Nat × GF256) (mem : e ∈ entries n) :
      e.2 * d e.1 = e.2 * ofNat (byteOf h (kind n e.1)) := by
    have range : n < e.1 ∧ e.1 < 136 := by
      rcases List.mem_append.mp mem with mem | mem
      · obtain ⟨c, cycle, mem⟩ := List.mem_flatMap.mp mem
        obtain ⟨past, mem⟩ := mem_carry mem
        exact ⟨past, ((cycles_cyclic c cycle).2.1 _ mem).2.1.trans (by decide)⟩
      · rw [List.mem_singleton.mp mem]
        exact ⟨by dsimp only; omega, by dsimp only; decide⟩
    rw [back.entry range.1 range.2]
  rw [sum_entries back.double, List.map_congr_left entry, sum_kinds, back.first] at zero
  have number := congrArg toNat zero
  rw [← add_assoc, ← add_assoc, toNat_add, toNat_add, toNat_add, toNat_mul, toNat_mul, toNat_mul,
    toNat_mul, toNat_ofNat (by omega), toNat_ofNat (by decide), toNat_ofNat (by decide),
    toNat_ofNat (by omega)] at number
  have none := mismatch_ne_zero (n - 85) (by omega) h half
  rw [Nat.add_sub_cancel' low] at none
  exact none number

end GenChat.Client.QrVersionSix
