import ProfileAdmin.Call.Identifier

/-!
# Proofs.Call.Identifier — what an identifier keeps of its draw

1. **Digits**: a place keeps the lowest bits of its digit, under a stamp.
2. **Bits**: all but the six bits under the stamps are kept.
3. **Form**: five groups of digits with hyphens between them.
4. **Difference**: two identifiers are the same exactly if the bits that they keep are.
-/

namespace ProfileAdmin.Call

open Text (hexDigit hexValue?)

variable {d d' : Draw} {i j b : Nat}

/-! ## Digits -/

/-- What is stamped on a place: the version on the thirteenth, the variant on the seventeenth. -/
def stampAt (i : Nat) : Nat :=
  if i = 12 then 4 else if i = 16 then 8 else 0

/-- How many bits of its digit a place keeps. -/
def keptAt (i : Nat) : Nat :=
  if i = 12 then 0 else if i = 16 then 2 else 4

/-- What a place keeps of its digit. -/
def Draw.kept (d : Draw) (i : Nat) : Nat :=
  ((d >>> (4 * (31 - i))).setWidth (keptAt i)).toNat

/-- A stamped digit is the stamp and what the place keeps of the digit. -/
theorem Draw.stamped_eq (d : Draw) :
    d.stamped = (List.range 32).map fun i => stampAt i + d.kept i := by
  unfold Draw.stamped
  refine List.map_congr_left fun i _ => ?_
  rw [kept, BitVec.toNat_setWidth]
  unfold stampAt keptAt
  split
  · exact congrArg (4 + ·) (Nat.mod_one _).symm
  · split
    · exact congrArg (8 + ·) (Nat.mod_mod_of_dvd _ (by decide : 4 ∣ 16))
    · exact (Nat.zero_add _).symm

/-- Below its stamp, a place has a hexadecimal digit. -/
theorem stamped_lt (d : Draw) : ∀ n ∈ d.stamped, n < 16 := by
  rw [d.stamped_eq, List.forall_mem_map]
  intro i _
  have hkept : d.kept i < 2 ^ keptAt i := BitVec.isLt _
  have hroom : stampAt i + 2 ^ keptAt i ≤ 16 := by
    unfold stampAt keptAt
    split
    · decide
    · split <;> decide
  exact Nat.lt_of_lt_of_le (Nat.add_lt_add_left hkept _) hroom

/-! ## Bits -/

/-- The bits under the stamps, the lowest bit of a draw being bit 0: two of the variant and four
of the version. -/
def stampedBits : List Nat :=
  [62, 63, 76, 77, 78, 79]

/-- The bits that are kept. -/
def keptBits : List Nat :=
  (List.range 128).filter fun b => b ∉ stampedBits

theorem length_keptBits : keptBits.length = 122 := by
  decide +kernel

/-- A bit is kept if it is among the lowest that its place keeps. -/
theorem mem_keptBits_iff : b ∈ keptBits ↔ ∃ i < 32, ∃ j < keptAt i, b = 4 * (31 - i) + j := by
  -- Every place but two keeps all four bits of its digit.
  have hplaces : ∀ b < 128, b ∈ keptBits ↔ b % 4 < keptAt (31 - b / 4) := by decide +kernel
  have hroom : ∀ i, keptAt i ≤ 4 := by
    intro i
    unfold keptAt
    split
    · decide
    · split <;> decide
  constructor
  · intro hb
    have hlt : b < 128 := List.mem_range.mp (List.mem_filter.mp hb).1
    refine ⟨31 - b / 4, by omega, b % 4, (hplaces b hlt).mp hb, by omega⟩
  · rintro ⟨i, hi, j, hj, rfl⟩
    have hj4 : j < 4 := Nat.lt_of_lt_of_le hj (hroom i)
    have hplace : 31 - (4 * (31 - i) + j) / 4 = i := by omega
    have hbit : (4 * (31 - i) + j) % 4 = j := by omega
    refine (hplaces _ (by omega)).mpr ?_
    rwa [hplace, hbit]

/-- Places keep the same if they keep the same bits. -/
theorem kept_eq_iff :
    d.kept i = d'.kept i ↔
      ∀ j < keptAt i, d.getLsbD (4 * (31 - i) + j) = d'.getLsbD (4 * (31 - i) + j) := by
  have hbit : ∀ (d : Draw) j, (d.kept i).testBit j =
      (decide (j < keptAt i) && d.getLsbD (4 * (31 - i) + j)) := by
    intro d j
    rw [Draw.kept, BitVec.testBit_toNat, BitVec.getLsbD_setWidth, BitVec.getLsbD_ushiftRight]
  constructor
  · intro h j hj
    have hsame := congrArg (Nat.testBit · j) h
    simpa only [hbit, hj, decide_true, Bool.true_and] using hsame
  · intro h
    -- The bits that are kept decide, and all bits above them are off on both sides.
    refine Nat.eq_of_testBit_eq fun j => ?_
    rw [hbit, hbit]
    by_cases hj : j < keptAt i
    · rw [h j hj]
    · simp [hj]

/-- Stamped digits are the same if the bits that are kept are. -/
theorem stamped_eq_iff : d.stamped = d'.stamped ↔ ∀ b ∈ keptBits, d.getLsbD b = d'.getLsbD b := by
  rw [d.stamped_eq, d'.stamped_eq, List.map_inj_left]
  constructor
  · intro h b hb
    obtain ⟨i, hi, j, hj, rfl⟩ := mem_keptBits_iff.mp hb
    have hkept := Nat.add_left_cancel (h i (List.mem_range.mpr hi))
    exact kept_eq_iff.mp hkept j hj
  · intro h i hi
    rw [List.mem_range] at hi
    refine congrArg _ (kept_eq_iff.mpr fun j hj => ?_)
    exact h _ (mem_keptBits_iff.mpr ⟨i, hi, j, hj, rfl⟩)

/-! ## Form -/

/-- The digits of an identifier. -/
def Draw.digits (d : Draw) : List Char :=
  d.stamped.map hexDigit

/-- The groups in which the digits are written. -/
def groups (ds : List Char) : List (List Char) :=
  [ds.take 8, (ds.drop 8).take 4, (ds.drop 12).take 4, (ds.drop 16).take 4, (ds.drop 20).take 12]

/-- The UUID of a draw. -/
def Draw.uuid (d : Draw) : String :=
  String.ofList (List.intercalate ['-'] (groups d.digits))

/-- An identifier is a UUID behind the prefix for UUIDs. -/
theorem Draw.identifier_eq (d : Draw) : d.identifier = "urn:uuid:" ++ d.uuid := by
  have hparts : d.identifier = String.ofList ("urn:uuid:".toList ++ d.digits.take 8 ++
      '-' :: (d.digits.drop 8).take 4 ++ '-' :: (d.digits.drop 12).take 4 ++
      '-' :: (d.digits.drop 16).take 4 ++ '-' :: (d.digits.drop 20).take 12) := rfl
  have hjoined : d.identifier =
      String.ofList ("urn:uuid:".toList ++ List.intercalate ['-'] (groups d.digits)) := by
    rw [hparts]
    -- The prefix is taken for any text, so that it is not taken apart.
    generalize "urn:uuid:".toList = lead
    simp [groups, List.intercalate]
  rw [hjoined, String.ofList_append, String.ofList_toList, uuid]

theorem Draw.length_digits (d : Draw) : d.digits.length = 32 := by
  rw [digits, List.length_map, d.stamped_eq, List.length_map, List.length_range]

/-- The digits that are used, in lower case. -/
def hexDigits : List Char :=
  ['0', '1', '2', '3', '4', '5', '6', '7', '8', '9', 'a', 'b', 'c', 'd', 'e', 'f']

theorem hexDigit_mem : ∀ n < 16, hexDigit n ∈ hexDigits := by
  decide

/-- All digits are written in lower case. -/
theorem Draw.digits_subset (d : Draw) : ∀ c ∈ d.digits, c ∈ hexDigits :=
  List.forall_mem_map.mpr fun n hn => hexDigit_mem n (stamped_lt d n hn)

/-- Groups are made of the digits. -/
theorem mem_of_mem_groups {ds g : List Char} {c : Char} (hg : g ∈ groups ds) (hc : c ∈ g) :
    c ∈ ds := by
  simp only [groups, List.mem_cons, List.not_mem_nil, or_false] at hg
  rcases hg with rfl | rfl | rfl | rfl | rfl
  · exact List.mem_of_mem_take hc
  all_goals exact List.mem_of_mem_drop (List.mem_of_mem_take hc)

/-- A UUID of version 4, written in lower case. -/
structure IsVersion4 (uuid : String) : Prop where
  length_eq : uuid.length = 36
  hyphenated : ∃ gs : List (List Char), uuid.toList = List.intercalate ['-'] gs ∧
    gs.map List.length = [8, 4, 4, 4, 12] ∧ ∀ g ∈ gs, ∀ c ∈ g, c ∈ hexDigits
  version : uuid.toList[14]? = some '4'
  variant : ∃ c ∈ ['8', '9', 'a', 'b'], uuid.toList[19]? = some c

/-- The UUID of a draw is one of version 4. -/
theorem Draw.isVersion4_uuid (d : Draw) : IsVersion4 d.uuid := by
  have hchars : d.uuid.toList = List.intercalate ['-'] (groups d.digits) := String.toList_ofList
  have hlengths : (groups d.digits).map List.length = [8, 4, 4, 4, 12] := by
    simp [groups, d.length_digits]
  have hdigit : ∀ i < 32, d.digits[i]? = some (hexDigit (stampAt i + d.kept i)) := by
    intro i hi
    rw [digits, d.stamped_eq, List.map_map, List.getElem?_map, List.getElem?_range hi]
    rfl
  constructor
  · rw [← String.length_toList, hchars]
    simp [List.intercalate, groups, d.length_digits]
  · exact ⟨_, hchars, hlengths, fun g hg c hc => d.digits_subset c (mem_of_mem_groups hg hc)⟩
  · -- The version is all there is at its place.
    have hplace : d.uuid.toList[14]? = d.digits[12]? := by
      rw [hchars]
      simp [List.intercalate, groups, d.length_digits]
    have hnone : d.kept 12 = 0 := Nat.mod_one _
    rw [hplace, hdigit 12 (by decide), hnone]
    decide
  · have hplace : d.uuid.toList[19]? = d.digits[16]? := by
      rw [hchars]
      simp [List.intercalate, groups, d.length_digits]
    have hfew : d.kept 16 < 4 := Nat.mod_lt _ (by decide)
    have hvariant : ∀ k < 4, hexDigit (stampAt 16 + k) ∈ ['8', '9', 'a', 'b'] := by decide
    exact ⟨_, hvariant _ hfew, hplace.trans (hdigit 16 (by decide))⟩

/-! ## Difference -/

/-- The groups make up all digits. -/
theorem flatten_groups {ds : List Char} (h : ds.length = 32) : (groups ds).flatten = ds := by
  have hlast : (ds.drop 20).take 12 = ds.drop 20 := List.take_of_length_le (by simp [h])
  -- Each group stands in front of those behind it.
  have hfront : ∀ m n, (ds.drop m).take n ++ ds.drop (m + n) = ds.drop m := by
    intro m n
    rw [← List.drop_drop, List.take_append_drop]
  have hgroups : (groups ds).flatten = (ds.drop 0).take 8 ++ ((ds.drop 8).take 4 ++
      ((ds.drop 12).take 4 ++ ((ds.drop 16).take 4 ++ (ds.drop 20).take 12))) := by
    simp [groups]
  rw [hgroups, hlast, hfront 16 4, hfront 12 4, hfront 8 4, hfront 0 8, List.drop_zero]

/-- Between the hyphens there are the groups. -/
theorem Draw.splitOn_uuid (d : Draw) : d.uuid.toList.splitOn '-' = groups d.digits := by
  have hplain : '-' ∉ hexDigits := by decide
  have hnone : ∀ g ∈ groups d.digits, '-' ∉ g := by
    intro g hg hmem
    exact hplain (d.digits_subset _ (mem_of_mem_groups hg hmem))
  rw [uuid, String.toList_ofList]
  exact List.splitOn_intercalate '-' hnone (List.cons_ne_nil _ _)

/-- The value of each digit is there to be read. -/
theorem Draw.values_digits (d : Draw) : d.digits.map hexValue? = d.stamped.map some := by
  have hvalue : ∀ n < 16, hexValue? (hexDigit n) = some n := by decide
  rw [digits, List.map_map]
  exact List.map_congr_left fun n hn => hvalue n (stamped_lt d n hn)

/-- Two identifiers are the same exactly if their draws agree on all bits that are kept. -/
theorem identifier_eq_iff :
    d.identifier = d'.identifier ↔ ∀ b ∈ keptBits, d.getLsbD b = d'.getLsbD b := by
  rw [← stamped_eq_iff]
  constructor
  · intro h
    rw [d.identifier_eq, d'.identifier_eq, ← String.toList_inj, String.toList_append,
      String.toList_append] at h
    -- Back from the text to the bits: the prefix goes, then the hyphens, then the digits are read.
    have huuid : d.uuid.toList = d'.uuid.toList := List.append_cancel_left h
    have hgroups : groups d.digits = groups d'.digits := by
      rw [← d.splitOn_uuid, ← d'.splitOn_uuid, huuid]
    have hdigits : d.digits = d'.digits := by
      rw [← flatten_groups d.length_digits, ← flatten_groups d'.length_digits, hgroups]
    have hvalues : d.stamped.map some = d'.stamped.map some := by
      rw [← d.values_digits, ← d'.values_digits, hdigits]
    exact (List.map_inj_right fun _ _ => Option.some.inj).mp hvalues
  · intro h
    rw [d.identifier_eq, d'.identifier_eq, Draw.uuid, Draw.uuid, Draw.digits, Draw.digits, h]

end ProfileAdmin.Call
