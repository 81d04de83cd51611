/-! A well-founded order for worklists whose items have a depth: finishing an item may add any number
of items, as long as all of them are deeper. Items are counted by depth, and the counts are compared from
the least depth on. -/

namespace GenericC

def DepthCounts : (bound : Nat) → Type
  | 0 => Nat
  | bound + 1 => Nat × DepthCounts bound

namespace DepthCounts

instance wellFounded : (bound : Nat) → WellFoundedRelation (DepthCounts bound)
  | 0 => inferInstanceAs (WellFoundedRelation Nat)
  | bound + 1 =>
    let _ := wellFounded bound
    inferInstanceAs (WellFoundedRelation (Nat × DepthCounts bound))

def ofFun : (bound : Nat) → (Nat → Nat) → DepthCounts bound
  | 0, count => count 0
  | bound + 1, count => (count 0, ofFun bound fun depth => count (depth + 1))

theorem ofFun_rel (bound : Nat) (after before : Nat → Nat) (depth : Nat) (inside : depth ≤ bound)
    (fewer : after depth < before depth) (same : ∀ less < depth, after less = before less) :
    (wellFounded bound).rel (ofFun bound after) (ofFun bound before) := by
  induction bound generalizing after before depth with
  | zero =>
    obtain rfl : depth = 0 := by omega
    exact fewer
  | succ bound ih =>
    cases depth with
    | zero => exact Prod.Lex.left _ _ fewer
    | succ depth =>
      have first : after 0 = before 0 := same 0 (by omega)
      have later := ih (fun depth => after (depth + 1)) (fun depth => before (depth + 1)) depth (by omega) fewer
        (fun less below => same (less + 1) (by omega))
      simp only [ofFun, first]
      exact Prod.Lex.right _ later

end DepthCounts

/-- How many of some depths, each counted as `bound` if it is larger, are equal to `depth`. -/
def countDepth (bound : Nat) (depths : List Nat) (depth : Nat) : Nat :=
  (depths.map (min · bound)).count depth

def rankOf (bound : Nat) (depths : List Nat) : DepthCounts bound := .ofFun bound (countDepth bound depths)

/-- Replacing a depth by deeper ones within the bound makes the rank smaller. -/
theorem rankOf_rel {bound depth : Nat} {before after rest : List Nat} (added : List Nat)
    (had : before.Perm (depth :: rest)) (has : after.Perm (rest ++ added))
    (deeper : ∀ new ∈ added, depth < new ∧ new ≤ bound) :
    (DepthCounts.wellFounded bound).rel (rankOf bound after) (rankOf bound before) := by
  have untouched : ∀ less ≤ min depth bound, countDepth bound added less = 0 := by
    intro less below
    simp only [countDepth, List.count_eq_zero, List.mem_map, not_exists, not_and]
    intro new member equal
    have := deeper new member
    omega
  have counted : ∀ any, countDepth bound before any = countDepth bound (depth :: rest) any :=
    fun any => (had.map _).count_eq any
  have split : ∀ any, countDepth bound after any = countDepth bound rest any + countDepth bound added any := by
    intro any
    rw [countDepth, (has.map _).count_eq any]
    simp [countDepth, List.count_append]
  refine DepthCounts.ofFun_rel bound _ _ (min depth bound) (by omega) ?_ ?_
  · rw [split, untouched _ (by omega), counted]
    simp [countDepth]
  · intro less below
    rw [split, untouched _ (by omega), counted]
    have different : ¬ min depth bound = less := by omega
    simp [countDepth, different]

end GenericC
