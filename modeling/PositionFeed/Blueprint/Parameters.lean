namespace PositionFeed

/-!
# Parameters of a channel

Parameters are texts under distinct keys.  They are kept in the order of their
keys, so two parameter lists with the same keys and values are equal, whatever
order they were given in.
-/

/-- Texts under distinct keys, in the order of the keys. -/
structure Parameters where
  /-- The keys and their values. -/
  entries : List (String × String)
  /-- The keys ascend strictly. -/
  ascending : entries.Pairwise fun first second => first.1 < second.1
  deriving DecidableEq

namespace Parameters

def empty : Parameters := ⟨[], .nil⟩

instance : Inhabited Parameters := ⟨empty⟩

/-- Puts a value under a key into a list in key order. -/
def insertEntry (key value : String) :
    List (String × String) → List (String × String)
  | [] => [(key, value)]
  | entry :: rest =>
      if key < entry.1 then (key, value) :: entry :: rest
      else if key = entry.1 then (key, value) :: rest
      else entry :: insertEntry key value rest

/-- Every entry after an insertion is the new one or an old one. -/
theorem mem_insertEntry
    {key value : String}
    {entries : List (String × String)}
    {entry : String × String}
    (member : entry ∈ insertEntry key value entries) :
    entry = (key, value) ∨ entry ∈ entries := by
  induction entries with
  | nil =>
      simpa [insertEntry] using member
  | cons first rest inductionHypothesis =>
      unfold insertEntry at member
      split at member
      · simpa using member
      · split at member
        · rcases List.mem_cons.mp member with isNew | inRest
          · exact .inl isNew
          · exact .inr (List.mem_cons_of_mem _ inRest)
        · rcases List.mem_cons.mp member with isFirst | inTail
          · exact .inr (by simp [isFirst])
          · rcases inductionHypothesis inTail with isNew | inRest
            · exact .inl isNew
            · exact .inr (List.mem_cons_of_mem _ inRest)

/-- An insertion keeps the order of the keys. -/
theorem insertEntry_ascending
    (key value : String)
    {entries : List (String × String)}
    (ascending : entries.Pairwise fun first second => first.1 < second.1) :
    (insertEntry key value entries).Pairwise
      fun first second => first.1 < second.1 := by
  induction entries with
  | nil =>
      simp [insertEntry]
  | cons first rest inductionHypothesis =>
      obtain ⟨firstBelow, restAscending⟩ := List.pairwise_cons.mp ascending
      unfold insertEntry
      split
      · rename_i below
        refine List.pairwise_cons.mpr ⟨?_, ascending⟩
        intro entry member
        rcases List.mem_cons.mp member with isFirst | inRest
        · simpa [isFirst] using below
        · exact String.lt_trans below (firstBelow entry inRest)
      · split
        · rename_i same
          refine List.pairwise_cons.mpr ⟨?_, restAscending⟩
          intro entry member
          simpa [same] using firstBelow entry member
        · rename_i notBelow different
          refine List.pairwise_cons.mpr
            ⟨?_, inductionHypothesis restAscending⟩
          intro entry member
          rcases mem_insertEntry member with isNew | inRest
          · rw [isNew]
            exact Std.lt_of_le_of_ne (String.not_lt.mp notBelow)
              (fun same => different same.symm)
          · exact firstBelow entry inRest

/-- Puts a value under a key, in place of any earlier one. -/
def insert (key value : String) (parameters : Parameters) : Parameters :=
  ⟨insertEntry key value parameters.entries,
    insertEntry_ascending key value parameters.ascending⟩

/-- The value under a key. -/
def get? (key : String) (parameters : Parameters) : Option String :=
  parameters.entries.lookup key

/-- The parameters with the given keys and values; of values under one key the
last one counts. -/
def ofList (entries : List (String × String)) : Parameters :=
  entries.foldl (fun parameters entry => parameters.insert entry.1 entry.2)
    empty

end Parameters

end PositionFeed
