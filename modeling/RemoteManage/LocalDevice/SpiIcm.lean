import RemoteManage.Foundation.Median
import Mathlib.Algebra.Order.Floor.Ring
import Mathlib.Data.Rat.Floor
import Mathlib.Tactic.NormNum

/-!
# The attitude filter of the inertial sensor

`calculate_angle` keeps the last three angles in a ring and takes the middle one as their sum less
the largest and the smallest. The search for these two starts from `-0x3fff` and `0x3fff`, which
hundredths of a degree exceed near the half turn. The raw angle is a parameter and taken as an exact
number of an ordered field.
-/

namespace RemoteManage.LocalDevice

open RemoteManage.Foundation

/-- `ANGLE_LIST_SIZE`. -/
abbrev angleListSize : ℕ := 3

variable {K : Type*} [Field K] [LinearOrder K]

/-- The correction of an angle that left the range of a turn. -/
def wrapAngle (raw : K) : K :=
  let angle := if raw > 18000 then raw - 36000 else raw
  if angle < -18000 then angle + 36000 else angle

/-- `round` of the C library: halves go away from zero. -/
def roundAway [FloorRing K] (x : K) : ℤ := if 0 ≤ x then ⌊x + 1 / 2⌋ else ⌈x - 1 / 2⌉

/-- `AngleList` and `AngleIndex` with the `angle_` of the device. -/
structure AngleFilter (K : Type*) where
  angleList : Vector K angleListSize
  angleIndex : ℕ
  angle : ℤ
  angleIndex_lt : angleIndex < angleListSize

namespace AngleFilter

/-- The variables before the first reading. -/
def init : AngleFilter K := ⟨.replicate angleListSize 0, 0, 0, Nat.zero_lt_succ 2⟩

/-- One turn of the loop over `AngleList`: the sum, the largest and the smallest so far. -/
def scanAngle (seen : K × K × K) (angle : K) : K × K × K :=
  (seen.1 + angle, if angle ≥ seen.2.1 then angle else seen.2.1,
    if angle ≤ seen.2.2 then angle else seen.2.2)

/-- The value `sumx` that `calculate_angle` divides and rounds. -/
def sumx (s : AngleFilter K) : K :=
  let seen := s.angleList.toList.foldl scanAngle (0, -0x3fff, 0x3fff)
  seen.1 - seen.2.1 - seen.2.2

/-- The next index stays inside the ring. -/
theorem next_lt (i : ℕ) (h : i < angleListSize) :
    (if i + 1 = angleListSize then 0 else i + 1) < angleListSize := by
  split <;> omega

/-- The new angle goes to its place in the ring. -/
def record (s : AngleFilter K) (raw : K) : AngleFilter K where
  angleList := s.angleList.set s.angleIndex (wrapAngle raw) s.angleIndex_lt
  angleIndex := if s.angleIndex + 1 = angleListSize then 0 else s.angleIndex + 1
  angle := s.angle
  angleIndex_lt := next_lt s.angleIndex s.angleIndex_lt

/-- `calculate_angle` on a raw angle. -/
def calculateAngle [FloorRing K] (s : AngleFilter K) (raw : K) : AngleFilter K :=
  let s := s.record raw
  { s with angle := (roundAway (s.sumx / ((angleListSize - 2 : ℕ) : K))).tdiv 100 }

/-- `calculate_angle` on one reading after another. -/
def run [FloorRing K] (s : AngleFilter K) (readings : List K) : AngleFilter K :=
  readings.foldl calculateAngle s

/-- The loop over `AngleList` leaves the sum, and the extremes as far as the initial bounds show them. -/
theorem foldl_scanAngle (angles : List K) (sum largest smallest : K) :
    angles.foldl scanAngle (sum, largest, smallest) =
      (sum + angles.sum, angles.foldl max largest, angles.foldl min smallest) := by
  induction angles generalizing sum largest smallest with
  | nil => simp
  | cons angle rest ih =>
    have hlargest : (if angle ≥ largest then angle else largest) = max largest angle := by
      rw [max_def]
    have hsmallest : (if angle ≤ smallest then angle else smallest) = min smallest angle := by
      rw [min_comm, min_def]
    rw [List.foldl_cons, scanAngle, hlargest, hsmallest, ih, List.sum_cons, add_assoc]
    rfl

/-- `sumx` is the sum of the angles in the ring without the extremes found. -/
theorem sumx_eq_trimmedSum (s : AngleFilter K) :
    s.sumx = trimmedSum 0x3fff (-0x3fff) s.angleList.toList := by
  rw [sumx, foldl_scanAngle, zero_add]
  rfl

/-- After three readings the ring holds their angles, wherever the index stood. -/
theorem record_three (s : AngleFilter K) (a b c : K) :
    (((s.record a).record b).record c).angleList.toList.Perm [wrapAngle a, wrapAngle b, wrapAngle c] := by
  obtain ⟨⟨⟨angles⟩, hsize⟩, index, angle, hindex⟩ := s
  obtain ⟨x, y, z, rfl⟩ := List.length_eq_three.mp hsize
  have hlt : index < 3 := hindex
  obtain rfl | rfl | rfl : index = 0 ∨ index = 1 ∨ index = 2 := by omega
  · exact List.Perm.refl _
  · -- the third angle is in the first place
    exact (List.perm_append_comm : ([wrapAngle c] ++ [wrapAngle a, wrapAngle b]).Perm _)
  · -- the first angle is in the last place
    exact (List.perm_append_comm : ([wrapAngle b, wrapAngle c] ++ [wrapAngle a]).Perm _)

variable [FloorRing K]

/-- The readings before the last three do not matter to the ring. -/
theorem run_angleList (s : AngleFilter K) (earlier : List K) (a b c : K) :
    (s.run (earlier ++ [a, b, c])).angleList.toList.Perm [wrapAngle a, wrapAngle b, wrapAngle c] := by
  rw [run, List.foldl_append]
  exact record_three (earlier.foldl calculateAngle s) a b c

/-- The value of the filter is the median of the angles, and lies between the smallest and the largest. -/
def Filters {A : Type*} [LE A] (value : A) (angles : List A) : Prop :=
  IsMedian value angles ∧ (∃ x ∈ angles, x ≤ value) ∧ ∃ x ∈ angles, value ≤ x

/-- The median is one of the angles, so it lies between them. -/
theorem filters_iff {A : Type*} [Preorder A] (value : A) (angles : List A) :
    Filters value angles ↔ IsMedian value angles :=
  ⟨fun h => h.1, fun h => ⟨h, ⟨value, h.mem, le_rfl⟩, value, h.mem, le_rfl⟩⟩

variable [IsStrictOrderedRing K]

/-- After three readings or more, `sumx` is the median of the last three angles exactly when one of them is
at most `0x3fff` and one at least `-0x3fff`. -/
theorem run_sumx_iff (earlier : List K) (a b c : K) :
    Filters ((init.run (earlier ++ [a, b, c])).sumx) [wrapAngle a, wrapAngle b, wrapAngle c] ↔
      (∃ x ∈ [wrapAngle a, wrapAngle b, wrapAngle c], x ≤ 0x3fff) ∧
        ∃ x ∈ [wrapAngle a, wrapAngle b, wrapAngle c], -0x3fff ≤ x := by
  have hring := run_angleList (init (K := K)) earlier a b c
  have hbounds : (-0x3fff : K) ≤ 0x3fff := by norm_num
  rw [filters_iff, sumx_eq_trimmedSum, trimmedSum_perm _ _ hring]
  exact isMedian_trimmedSum_iff hbounds rfl

/-- Of the angles 100, 300 and 200 after a fourth one the filter takes 200. -/
theorem run_sumx_middle :
    Filters ((init.run ([7, 100, 300, 200] : List ℚ)).sumx) [wrapAngle 100, wrapAngle 300, wrapAngle 200] :=
  (run_sumx_iff [7] 100 300 200).mpr
    ⟨⟨wrapAngle 100, by simp, by norm_num [wrapAngle]⟩, wrapAngle 100, by simp, by norm_num [wrapAngle]⟩

/-- With three angles of 170 degrees the filter takes 176.17 degrees, which is above all of them. -/
theorem run_sumx_exceeds :
    ¬ (∀ (earlier : List ℚ) (a b c : ℚ),
      Filters ((init.run (earlier ++ [a, b, c])).sumx) [wrapAngle a, wrapAngle b, wrapAngle c]) ∧
      (init.run ([17000, 17000, 17000] : List ℚ)).sumx = 17617 := by
  have hvalue : (init.run ([17000, 17000, 17000] : List ℚ)).sumx = 17617 := by
    have hring := run_angleList (init (K := ℚ)) [] 17000 17000 17000
    rw [List.nil_append] at hring
    rw [sumx_eq_trimmedSum, trimmedSum_perm _ _ hring]
    norm_num [trimmedSum, wrapAngle]
  refine ⟨fun h => ?_, hvalue⟩
  have hmedian := (h [] 17000 17000 17000).2.2
  rw [List.nil_append, hvalue] at hmedian
  norm_num [wrapAngle] at hmedian

end AngleFilter

end RemoteManage.LocalDevice
