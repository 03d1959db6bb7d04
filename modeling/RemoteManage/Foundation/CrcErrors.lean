import Mathlib.Data.List.GetD
import RemoteManage.Foundation.ReflectedCrc

/-!
# Errors that a reflected checksum detects

The register is linear in what it holds and what it is fed: two messages of one length leave registers that
differ by the syndrome of their difference. A generator whose top bit is set lets no burst within the width
of the register pass, one with an odd number of bits lets no odd number of errors pass, and one with a long
period no two errors that are closer than the period.
-/

namespace RemoteManage.Foundation

variable {w : ℕ} (poly : BitVec w)

/-- A bit that enters is added behind the shift. -/
theorem feedBit_eq (crc : BitVec w) (bit : Bool) :
    feedBit poly crc bit = shiftBit poly crc ^^^ bif bit then poly else 0#w := by
  cases bit with
  | false => exact (BitVec.xor_zero).symm
  | true =>
    cases h : crc.getLsbD 0 with
    | false => simp [shiftBit, feedBit, h]
    | true =>
      have hcancel : crc >>> 1 ^^^ poly ^^^ poly = crc >>> 1 := by
        rw [BitVec.xor_assoc, BitVec.xor_self, BitVec.xor_zero]
      rw [feedBit, if_pos h, shiftBit, feedBit, if_neg (by simp [h])]
      exact hcancel.symm

/-- The register is linear in what it holds and what it is fed. -/
theorem feedBit_xor (left right : BitVec w) (a b : Bool) :
    feedBit poly (left ^^^ right) (a ^^ b) = feedBit poly left a ^^^ feedBit poly right b := by
  have hbits : (bif a ^^ b then poly else 0#w) =
      (bif a then poly else 0#w) ^^^ (bif b then poly else 0#w) := by
    cases a <;> cases b <;> simp
  rw [feedBit_eq, feedBit_eq, feedBit_eq, shiftBit_xor, hbits]
  ac_rfl

/-- The sum of two messages of one length leaves the sum of their registers. -/
theorem foldl_feedBit_xor (left right : BitVec w) {m n : List Bool} (h : m.length = n.length) :
    (List.zipWith xor m n).foldl (feedBit poly) (left ^^^ right) =
      m.foldl (feedBit poly) left ^^^ n.foldl (feedBit poly) right := by
  induction m generalizing n left right with
  | nil =>
    obtain rfl := List.length_eq_zero_iff.mp h.symm
    rfl
  | cons a m ih =>
    cases n with
    | nil => contradiction
    | cons b n =>
      rw [List.zipWith_cons_cons, List.foldl_cons, List.foldl_cons, List.foldl_cons, feedBit_xor,
        ih _ _ (Nat.succ.inj h)]

/-- What the difference of two messages leaves in the register. -/
def syndrome (e : List Bool) : BitVec w := e.foldl (feedBit poly) 0#w

/-- Bits that are not set only shift the register. -/
theorem foldl_replicate_false (crc : BitVec w) (n : ℕ) :
    (List.replicate n false).foldl (feedBit poly) crc = (shiftBit poly)^[n] crc := by
  induction n generalizing crc with
  | zero => rfl
  | succ n ih =>
    rw [List.replicate_succ, List.foldl_cons, ih, Function.iterate_succ_apply]
    rfl

/-- An empty register stays empty. -/
theorem iterate_shiftBit_zero (n : ℕ) : (shiftBit poly)^[n] 0#w = 0#w :=
  Function.iterate_fixed (by simp [shiftBit, feedBit]) n

/-- Feeding a register a word of its width leaves nothing exactly when it held that word. -/
theorem foldl_feedBit_word_eq_zero_iff (htop : Function.Injective (shiftBit poly)) (crc word : BitVec w) :
    ((List.range w).map word.getLsbD).foldl (feedBit poly) crc = 0#w ↔ crc = word := by
  have hout : word >>> w = 0#w := BitVec.eq_of_getLsbD_eq fun i _ => by simp
  have hword := iterate_shiftBit_word poly w crc word
  rw [hout, BitVec.xor_zero] at hword
  rw [← hword]
  refine Iff.trans ?_ BitVec.xor_eq_zero_iff
  constructor
  · intro h
    exact htop.iterate w (h.trans (iterate_shiftBit_zero poly w).symm)
  · intro h
    rw [h, iterate_shiftBit_zero]

section Top

variable {poly} (htop : poly.getLsbD (w - 1) = true)

include htop

/-- With the top bit in the generator a shift empties no register. -/
theorem eq_zero_of_shiftBit {crc : BitVec w} (h : shiftBit poly crc = 0#w) : crc = 0#w := by
  have hshift : (shiftBit poly crc).getLsbD (w - 1) = false ∧ ∀ i, (shiftBit poly crc).getLsbD i = false := by
    rw [h]
    exact ⟨BitVec.getLsbD_zero, fun _ => BitVec.getLsbD_zero⟩
  have hlow : crc.getLsbD 0 = false := by
    by_contra hlow
    rw [shiftBit, feedBit, if_neg hlow, BitVec.getLsbD_xor, htop, BitVec.getLsbD_ushiftRight,
      BitVec.getLsbD_of_ge _ _ (by omega)] at hshift
    exact absurd hshift.1 (by decide)
  refine BitVec.eq_of_getLsbD_eq fun i _ => ?_
  rw [BitVec.getLsbD_zero]
  cases i with
  | zero => exact hlow
  | succ i =>
    have hi := hshift.2 i
    rwa [shiftBit, feedBit, if_pos hlow, BitVec.getLsbD_ushiftRight, Nat.add_comm] at hi

/-- With the top bit in the generator no shift loses anything. -/
theorem shiftBit_injective : Function.Injective (shiftBit poly) := by
  intro left right h
  refine BitVec.xor_eq_zero_iff.mp (eq_zero_of_shiftBit htop ?_)
  rw [shiftBit_xor, h, BitVec.xor_self]

/-- Errors within the width of the register leave something in it. -/
theorem syndrome_burst (a b : ℕ) {x : List Bool} (hx : true ∈ x) (hwidth : x.length ≤ w) :
    syndrome poly (List.replicate a false ++ x ++ List.replicate b false) ≠ 0#w := by
  intro h
  rw [syndrome, List.foldl_append, List.foldl_append, foldl_replicate_false, foldl_replicate_false,
    iterate_shiftBit_zero] at h
  have hfed : x.foldl (feedBit poly) 0#w = 0#w :=
    (shiftBit_injective htop).iterate b (h.trans (iterate_shiftBit_zero poly b).symm)
  let word : BitVec w := (BitVec.ofBoolListLE x).setWidth w
  have hbit (i : ℕ) (hi : i < x.length) : word.getLsbD i = x.getD i false := by
    rw [BitVec.getLsbD_setWidth, decide_eq_true (Nat.lt_of_lt_of_le hi hwidth), Bool.true_and,
      BitVec.getLsbD_ofBoolListLE]
  have hbits : (List.range x.length).map word.getLsbD = x := by
    refine List.ext_getElem (by simp) fun i hi hix => ?_
    rw [List.getElem_map, List.getElem_range, hbit i hix, List.getD_eq_getElem _ _ hix]
  have hout : word >>> x.length = 0#w := BitVec.eq_of_getLsbD_eq fun i _ => by simp [word]
  have hword := iterate_shiftBit_word poly x.length 0#w word
  rw [hbits, hfed, hout, BitVec.xor_zero, BitVec.zero_xor] at hword
  have hzero : word = 0#w :=
    (shiftBit_injective htop).iterate x.length (hword.trans (iterate_shiftBit_zero poly x.length).symm)
  obtain ⟨i, hi, htrue⟩ := List.mem_iff_getElem.mp hx
  have hset := hbit i hi
  rw [hzero, BitVec.getLsbD_zero, List.getD_eq_getElem _ _ hi, htrue] at hset
  exact absurd hset (by decide)

end Top

section Parity

/-- Whether an odd number of bits is set. -/
def oddWeight (bits : List Bool) : Bool := bits.foldr xor false

/-- Whether a word has an odd number of bits. -/
def parity (crc : BitVec w) : Bool := oddWeight ((List.range w).map crc.getLsbD)

/-- The weight is odd as a number. -/
theorem oddWeight_iff (bits : List Bool) : oddWeight bits = true ↔ bits.count true % 2 = 1 := by
  induction bits with
  | nil => decide
  | cons b bits ih =>
    rw [oddWeight, List.foldr_cons, ← oddWeight]
    cases b with
    | false => rw [Bool.false_xor, ih, List.count_cons_of_ne (by decide)]
    | true =>
      rw [Bool.true_xor, Bool.not_eq_true', List.count_cons_self, ← Bool.not_eq_true, ih]
      omega

/-- Weights of messages of one length add up. -/
theorem oddWeight_zipWith {m n : List Bool} (h : m.length = n.length) :
    oddWeight (List.zipWith xor m n) = (oddWeight m ^^ oddWeight n) := by
  induction m generalizing n with
  | nil =>
    obtain rfl := List.length_eq_zero_iff.mp h.symm
    rfl
  | cons a m ih =>
    cases n with
    | nil => contradiction
    | cons b n =>
      have hrest := ih (Nat.succ.inj h)
      simp only [oddWeight, List.zipWith_cons_cons, List.foldr_cons] at hrest ⊢
      rw [hrest, Bool.xor_assoc, Bool.xor_assoc]
      exact congrArg (a ^^ ·) (Bool.xor_left_comm b _ _)

/-- The parity of a sum is the sum of the parities. -/
theorem parity_xor (left right : BitVec w) : parity (left ^^^ right) = (parity left ^^ parity right) := by
  rw [parity, parity, parity, ← oddWeight_zipWith (by simp), List.zipWith_map, List.zipWith_self]
  exact congrArg oddWeight (List.map_congr_left fun _ _ => BitVec.getLsbD_xor)

/-- A shift drops the lowest bit. -/
theorem parity_shiftRight (crc : BitVec w) : parity (crc >>> 1) = (crc.getLsbD 0 ^^ parity crc) := by
  have hall : oddWeight ((List.range (w + 1)).map crc.getLsbD) = parity crc := by
    rw [List.range_succ, List.map_append, oddWeight, List.foldr_append, List.map_singleton,
      BitVec.getLsbD_of_ge crc w le_rfl]
    rfl
  have hcons : (List.range (w + 1)).map crc.getLsbD =
      crc.getLsbD 0 :: (List.range w).map (crc >>> 1).getLsbD := by
    rw [List.range_succ_eq_map, List.map_cons, List.map_map]
    refine congrArg _ (List.map_congr_left fun i _ => ?_)
    rw [BitVec.getLsbD_ushiftRight, Nat.add_comm]
    rfl
  rw [← hall, hcons, oddWeight, List.foldr_cons, ← oddWeight, ← parity, ← Bool.xor_assoc, Bool.xor_self,
    Bool.false_xor]

variable {poly} (hodd : parity poly = true)

include hodd

/-- A generator with an odd number of bits keeps the parity of what the register is fed. -/
theorem parity_feedBit (crc : BitVec w) (bit : Bool) :
    parity (feedBit poly crc bit) = (parity crc ^^ bit) := by
  rw [feedBit]
  split
  · next h => rw [parity_shiftRight, h, Bool.xor_comm]
  · next h =>
    rw [parity_xor, parity_shiftRight, hodd, Bool.eq_not_of_ne h]
    cases bit <;> cases parity crc <;> rfl

/-- The parity of the register is that of what it is fed. -/
theorem parity_foldl (crc : BitVec w) (e : List Bool) :
    parity (e.foldl (feedBit poly) crc) = (parity crc ^^ oddWeight e) := by
  induction e generalizing crc with
  | nil => exact (Bool.xor_false _).symm
  | cons bit e ih =>
    rw [List.foldl_cons, ih, parity_feedBit hodd, Bool.xor_assoc, oddWeight, oddWeight, List.foldr_cons]

/-- An odd number of errors leaves something in the register. -/
theorem syndrome_odd {e : List Bool} (h : e.count true % 2 = 1) : syndrome poly e ≠ 0#w := by
  intro hzero
  have hparity := parity_foldl hodd 0#w e
  rw [← syndrome, hzero, (oddWeight_iff e).mpr h] at hparity
  cases hp : parity 0#w <;> rw [hp] at hparity <;> exact absurd hparity (by decide)

end Parity

section Pair

/-- The first bit that is set. -/
theorem exists_first_true {e : List Bool} {n : ℕ} (h : e.count true = n + 1) :
    ∃ a rest, e = List.replicate a false ++ true :: rest ∧ rest.count true = n := by
  induction e with
  | nil => contradiction
  | cons b e ih =>
    cases b with
    | true =>
      rw [List.count_cons_self] at h
      exact ⟨0, e, rfl, Nat.succ.inj h⟩
    | false =>
      rw [List.count_cons_of_ne (by decide)] at h
      obtain ⟨a, rest, rfl, hrest⟩ := ih h
      exact ⟨a + 1, rest, rfl, hrest⟩

/-- Without a bit that is set, a message only has its length. -/
theorem eq_replicate_of_count_zero {e : List Bool} (h : e.count true = 0) :
    e = List.replicate e.length false :=
  List.eq_replicate_of_mem fun b hb => by
    cases b with
    | false => rfl
    | true => exact absurd hb (List.count_eq_zero.mp h)

/-- Two errors leave something in the register unless their distance is a period of the generator. -/
theorem syndrome_pair {poly : BitVec w} (htop : poly.getLsbD (w - 1) = true) {n : ℕ}
    (hperiod : ∀ k, 0 < k → k < n → (shiftBit poly)^[k] poly ≠ poly) {e : List Bool} (hlen : e.length ≤ n)
    (h : e.count true = 2) : syndrome poly e ≠ 0#w := by
  obtain ⟨a, rest, rfl, hrest⟩ := exists_first_true h
  obtain ⟨b, tail, rfl, htail⟩ := exists_first_true hrest
  rw [eq_replicate_of_count_zero htail] at hlen ⊢
  intro hzero
  rw [syndrome, List.foldl_append, foldl_replicate_false, iterate_shiftBit_zero, List.foldl_cons,
    List.foldl_append, foldl_replicate_false, List.foldl_cons, foldl_replicate_false, feedBit_eq, feedBit_eq,
    cond_true, show shiftBit poly 0#w = 0#w from iterate_shiftBit_zero poly 1, BitVec.zero_xor,
    ← Function.iterate_succ_apply' (shiftBit poly) b] at hzero
  have hback := (shiftBit_injective htop).iterate _ (hzero.trans (iterate_shiftBit_zero poly _).symm)
  simp only [List.length_append, List.length_replicate, List.length_cons] at hlen
  exact hperiod (b + 1) (Nat.succ_pos b) (by omega) (BitVec.xor_eq_zero_iff.mp hback)

end Pair

section Period

/-- A shift of a register that is kept as a number. -/
def shiftNat (poly crc : ℕ) : ℕ := bif Nat.beq (crc % 2) 0 then crc / 2 else Nat.xor (crc / 2) poly

/-- Whether so many shifts of a register never give a word. -/
def avoids (poly word : ℕ) : ℕ → ℕ → Bool
  | 0, _ => true
  | n + 1, crc => bif Nat.beq (shiftNat poly crc) word then false else avoids poly word n (shiftNat poly crc)

/-- The shift of the number is the number of the shift. -/
theorem toNat_shiftBit (crc : BitVec w) : (shiftBit poly crc).toNat = shiftNat poly.toNat crc.toNat := by
  have hlow : crc.getLsbD 0 = decide (crc.toNat % 2 = 1) := by
    rw [BitVec.getLsbD, Nat.testBit_zero]
  rcases Nat.mod_two_eq_zero_or_one crc.toNat with h | h
  · rw [shiftBit, feedBit, hlow, h, shiftNat, h, if_pos (by decide), BitVec.toNat_ushiftRight]
    rfl
  · rw [shiftBit, feedBit, hlow, h, shiftNat, h, if_neg (by decide), BitVec.toNat_xor,
      BitVec.toNat_ushiftRight]
    rfl

/-- What the numbers avoid, the register avoids. -/
theorem iterate_shiftBit_ne {word crc : BitVec w} {n : ℕ}
    (h : avoids poly.toNat word.toNat n crc.toNat = true) {k : ℕ} (hpos : 0 < k) (hk : k ≤ n) :
    (shiftBit poly)^[k] crc ≠ word := by
  induction n generalizing crc k with
  | zero => omega
  | succ n ih =>
    rw [avoids, ← toNat_shiftBit] at h
    cases hword : Nat.beq (shiftBit poly crc).toNat word.toNat with
    | true =>
      rw [hword] at h
      contradiction
    | false =>
      rw [hword] at h
      obtain ⟨k, rfl⟩ := Nat.exists_eq_succ_of_ne_zero (Nat.ne_of_gt hpos)
      rw [Function.iterate_succ_apply]
      rcases Nat.eq_zero_or_pos k with rfl | hk'
      · exact fun heq => Nat.ne_of_beq_eq_false hword (congrArg BitVec.toNat heq)
      · exact ih h hk' (Nat.le_of_succ_le_succ hk)

end Period

/-- Errors that a register of a width detects: an odd number of bits, two bits, or bits that lie within the
width of the register. -/
inductive Detectable (w : ℕ) : List Bool → Prop
  | odd {e : List Bool} (h : e.count true % 2 = 1) : Detectable w e
  | pair {e : List Bool} (h : e.count true = 2) : Detectable w e
  | burst (a b : ℕ) {x : List Bool} (hx : true ∈ x) (hwidth : x.length ≤ w) :
      Detectable w (List.replicate a false ++ x ++ List.replicate b false)

/-- Bits that are not set behind a message do not matter. -/
theorem Detectable.append_false {w : ℕ} {e : List Bool} (h : Detectable w e) (n : ℕ) :
    Detectable w (e ++ List.replicate n false) := by
  have hcount : (e ++ List.replicate n false).count true = e.count true := by
    rw [List.count_append, List.count_replicate]
    rfl
  cases h with
  | odd h => exact .odd (hcount ▸ h)
  | pair h => exact .pair (hcount ▸ h)
  | burst a b hx hwidth =>
    rw [List.append_assoc, List.replicate_append_replicate]
    exact .burst a (b + n) hx hwidth

/-- Errors are detected when those that are set lie within the width. -/
theorem Detectable.within {w : ℕ} {before errors after : List Bool} (hbefore : ∀ c ∈ before, c = false)
    (hafter : ∀ c ∈ after, c = false) (hset : true ∈ errors) (hwidth : errors.length ≤ w) :
    Detectable w (before ++ errors ++ after) := by
  have hburst := Detectable.burst before.length after.length hset hwidth
  rwa [← List.eq_replicate_of_mem hbefore, ← List.eq_replicate_of_mem hafter] at hburst

/-- A burst that begins before two words and ends in the first of them lies within twice its width when the
words change places. -/
theorem Detectable.swap_across {w a b : ℕ} {before tail first second : List Bool}
    (hfirst : first.length = w) (hsecond : second.length = w) (hset : true ∈ before ++ tail)
    (hwidth : (before ++ tail).length ≤ w) (hwords : first ++ second = tail ++ List.replicate b false) :
    Detectable (2 * w) (List.replicate a false ++ before ++ (second ++ first)) := by
  rw [List.length_append] at hwidth
  obtain ⟨rest, rfl, hrest⟩ : ∃ rest, first = tail ++ rest ∧ List.replicate b false = rest ++ second := by
    obtain ⟨rest, rfl, hrest⟩ | ⟨rest, hcut, hrest⟩ := List.append_eq_append_iff.mp hwords
    · obtain rfl : rest = [] := List.length_eq_zero_iff.mp (by
        rw [List.length_append] at hwidth
        omega)
      exact ⟨[], by simp, hrest.symm⟩
    · exact ⟨rest, hcut, hrest⟩
  have hspan : (before ++ second ++ tail).length ≤ 2 * w := by
    rw [List.length_append, List.length_append, hsecond]
    omega
  have hin : true ∈ before ++ second ++ tail := by
    rw [List.append_assoc]
    exact List.mem_append.mpr ((List.mem_append.mp hset).imp_right (List.mem_append_right _))
  have hdetected := Detectable.within (fun _ => List.eq_of_mem_replicate (n := a))
    (fun c hc => List.eq_of_mem_replicate (hrest ▸ List.mem_append_left second hc)) hin hspan
  simpa only [List.append_assoc] using hdetected

/-- What is detected within a word is detected within twice the width when the last two words of a message
change places. -/
theorem Detectable.swap_words {w : ℕ} {body first second : List Bool} (hfirst : first.length = w)
    (hsecond : second.length = w) (h : Detectable w (body ++ (first ++ second))) :
    Detectable (2 * w) (body ++ (second ++ first)) := by
  have hcount : (body ++ (second ++ first)).count true = (body ++ (first ++ second)).count true := by
    simp only [List.count_append]
    omega
  generalize he : body ++ (first ++ second) = e at h hcount
  cases h with
  | odd h => exact .odd (hcount ▸ h)
  | pair h => exact .pair (hcount ▸ h)
  | @burst a b x hx hwidth =>
    obtain ⟨tail, hhead, hwords⟩ | ⟨rest, rfl, hwords⟩ := List.append_eq_append_iff.mp he
    · obtain ⟨before, rfl, rfl⟩ | ⟨gap, hgap, rfl⟩ := List.append_eq_append_iff.mp hhead
      · exact .swap_across hfirst hsecond hx hwidth hwords
      · -- the burst lies in the two words
        have hset : true ∈ second ++ first := by
          have hin : true ∈ first ++ second := hwords ▸ List.mem_append_left _ (List.mem_append_right _ hx)
          exact List.mem_append.mpr (List.mem_append.mp hin).symm
        have hspan : (second ++ first).length ≤ 2 * w := by
          rw [List.length_append, hfirst, hsecond, Nat.two_mul]
        have hdetected := Detectable.within
          (fun c hc => List.eq_of_mem_replicate (hgap ▸ List.mem_append_left gap hc))
          (fun _ hc => absurd hc List.not_mem_nil) hset hspan
        rwa [List.append_nil] at hdetected
    · -- the burst ends before the two words, so that these are equal
      have hfalse (c : Bool) (hc : c ∈ first ++ second) : c = false :=
        List.eq_of_mem_replicate (hwords ▸ List.mem_append_right _ hc)
      have hsame : first = second := by
        rw [List.eq_replicate_of_mem fun c hc => hfalse c (List.mem_append_left _ hc),
          List.eq_replicate_of_mem fun c hc => hfalse c (List.mem_append_right _ hc), hfirst, hsecond]
      have hswap : second ++ first = first ++ second := by rw [hsame]
      rw [hswap, he]
      exact .burst a b hx (by omega)

/-- A generator that detects these errors in messages of so many bits. -/
structure DetectsUpTo (n : ℕ) : Prop where
  top : poly.getLsbD (w - 1) = true
  odd : parity poly = true
  period : ∀ k, 0 < k → k < n → (shiftBit poly)^[k] poly ≠ poly

variable {poly} {n : ℕ}

/-- An error that is detected leaves something in the register. -/
theorem DetectsUpTo.syndrome_ne (hpoly : DetectsUpTo poly n) {e : List Bool} (hlen : e.length ≤ n)
    (h : Detectable w e) : syndrome poly e ≠ 0#w := by
  cases h with
  | odd h => exact syndrome_odd hpoly.odd h
  | pair h => exact syndrome_pair hpoly.top hpoly.period hlen h
  | burst a b hx hwidth => exact syndrome_burst hpoly.top a b hx hwidth

end RemoteManage.Foundation
