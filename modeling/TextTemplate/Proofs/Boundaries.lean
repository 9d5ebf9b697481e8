import TextTemplate.Proofs.Slices

/-! The boundary between characters that an offset is rounded down to. It is where the longest leading part
that fits ends, and where a search stops that goes back from the offset byte by byte. -/

namespace TextTemplate.Text

def IsBoundary (text : List Char) (offset : Nat) : Prop :=
  ∃ before after, text = before ++ after ∧ offset = width before

/-- `front` is the longest leading part of the text that has at most `budget` bytes. -/
structure LongestWithin (text front : List Char) (budget : Nat) : Prop where
  begins : front <+: text
  fits : width front ≤ budget
  longest : ∀ other, other <+: text → width other ≤ budget → other <+: front

/-- The first offset on the way back from `offset` that is not inside a character or behind the text. -/
def boundaryBack (text : List Char) : Nat → Nat
  | 0 => 0
  | offset + 1 => if (splitAt? (offset + 1) text).isSome then offset + 1 else boundaryBack text offset

variable {text front : List Char} {budget offset : Nat}

theorem splitAt?_isSome_iff : (splitAt? offset text).isSome = true ↔ IsBoundary text offset := by
  constructor
  · intro found
    obtain ⟨⟨before, after⟩, parts⟩ := Option.isSome_iff_exists.mp found
    exact ⟨before, after, splitAt?_eq_some_iff.mp parts⟩
  · rintro ⟨before, after, split⟩
    exact Option.isSome_of_eq_some (splitAt?_eq_some_iff.mpr split)

theorem IsBoundary.slice?_isSome {start stop : Nat} (starts : IsBoundary text start) (stops : IsBoundary text stop)
    (forward : start ≤ stop) : (slice? start stop text).isSome = true := by
  obtain ⟨before, rest, split, rfl⟩ := starts
  obtain ⟨front, after, same, rfl⟩ := stops
  obtain ⟨part, rfl, rfl⟩ := prefix_of_width_le (split.symm.trans same) forward
  apply Option.isSome_iff_exists.mpr
  exact ⟨part, slice?_eq_some_iff.mpr ⟨before, after, split, rfl, width_append ..⟩⟩

theorem longestWithin_whole (large : width text ≤ budget) : LongestWithin text text budget :=
  ⟨List.prefix_rfl, large, fun _ begins _ => begins⟩

theorem longestWithin_nil (small : ∀ c ∈ text.head?, budget < c.utf8Size) : LongestWithin text [] budget where
  begins := List.nil_prefix
  fits := Nat.zero_le _
  longest := by
    rintro other ⟨back, rfl⟩ within
    cases other with
    | nil => exact List.nil_prefix
    | cons c rest =>
      have first := small c rfl
      rw [width_cons] at within
      omega

namespace LongestWithin

theorem cons (longest : LongestWithin text front budget) (c : Char) :
    LongestWithin (c :: text) (c :: front) (c.utf8Size + budget) where
  begins := List.cons_prefix_cons.mpr ⟨rfl, longest.begins⟩
  fits := by
    have := longest.fits
    rw [width_cons]
    omega
  longest := by
    intro other begins within
    rcases List.prefix_cons_iff.mp begins with rfl | ⟨more, rfl, later⟩
    · exact List.nil_prefix
    · rw [width_cons] at within
      exact List.cons_prefix_cons.mpr ⟨rfl, longest.longest more later (by omega)⟩

theorem clamped (longest : LongestWithin text front budget) : LongestWithin text front (min budget (width text)) where
  begins := longest.begins
  fits := by
    obtain ⟨back, rfl⟩ := longest.begins
    have := longest.fits
    rw [width_append]
    omega
  longest := fun other begins within => longest.longest other begins (Nat.le_trans within (Nat.min_le_left ..))

private theorem pred (longest : LongestWithin text front (offset + 1)) (short : width front ≠ offset + 1) :
    LongestWithin text front offset where
  begins := longest.begins
  fits := by
    have := longest.fits
    omega
  longest := fun other begins within => longest.longest other begins (Nat.le_succ_of_le within)

theorem prefix_of_le {last : Nat} {longer : List Char} (longest : LongestWithin text front budget)
    (other : LongestWithin text longer last) (order : budget ≤ last) : front <+: longer :=
  other.longest front longest.begins (Nat.le_trans longest.fits order)

theorem unique {other : List Char} (longest : LongestWithin text front budget)
    (same : LongestWithin text other budget) : front = other :=
  (longest.prefix_of_le same (Nat.le_refl _)).eq_of_length_le (same.prefix_of_le longest (Nat.le_refl _)).length_le

end LongestWithin

theorem longestWithin_splitWithin (budget : Nat) (text : List Char) :
    LongestWithin text (splitWithin budget text).1 budget := by
  fun_induction splitWithin budget text with
  | case1 budget => exact longestWithin_whole (Nat.zero_le _)
  | case2 budget c rest fits ih =>
    have grown := ih.cons c
    rwa [Nat.add_sub_cancel' fits] at grown
  | case3 budget c rest large =>
    refine longestWithin_nil fun first member => ?_
    obtain rfl := Option.some.inj member
    exact Nat.not_le.mp large

theorem longestWithin_width (front back : List Char) : LongestWithin (front ++ back) front (width front) := by
  have longest := longestWithin_splitWithin (width front) (front ++ back)
  rwa [splitWithin_width] at longest

theorem exists_longestWithin (budget : Nat) (text : List Char) : ∃ front, LongestWithin text front budget :=
  ⟨_, longestWithin_splitWithin budget text⟩

private theorem LongestWithin.isBoundary (longest : LongestWithin text front budget) :
    IsBoundary text (width front) := by
  obtain ⟨back, split⟩ := longest.begins
  exact ⟨front, back, split.symm, rfl⟩

theorem LongestWithin.boundaryBack_eq (longest : LongestWithin text front offset) :
    boundaryBack text offset = width front := by
  induction offset generalizing front with
  | zero => exact (Nat.le_zero.mp longest.fits).symm
  | succ offset ih =>
    by_cases exact_ : width front = offset + 1
    · have found := splitAt?_isSome_iff.mpr longest.isBoundary
      rw [exact_] at found ⊢
      rw [boundaryBack, if_pos found]
    · rw [boundaryBack, if_neg, ih (longest.pred exact_)]
      intro found
      obtain ⟨other, back, rfl, wide⟩ := splitAt?_isSome_iff.mp found
      obtain ⟨gap, rfl⟩ := longest.longest other (List.prefix_append ..) (Nat.le_of_eq wide.symm)
      have := longest.fits
      rw [width_append] at exact_ this
      omega

end TextTemplate.Text
