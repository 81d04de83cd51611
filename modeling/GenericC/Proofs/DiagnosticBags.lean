import GenericC.Diagnostic.Bag
import Mathlib.Data.List.Lex
import Mathlib.Data.List.Sort

/-! What stays in a bag of diagnostics. The limit cuts off what is reported late. Sorting puts the worst of the reports
that say the same first, and of these the first one stays, so that leaving out the others never hides an error. A
reporter that passes on each report once fills a bag with the same reports. -/

namespace GenericC

/-- Where a diagnostic stands in a sorted bag: by file and place, the worse first, then by code. -/
def Diagnostic.sortKey (report : Diagnostic) : List Int :=
  [report.span.file.toNat, report.span.start.toNat, report.span.stop.toNat, -report.severity.rank.toNat,
    report.code.number.toNat]

def DedupReporter.report (state : DedupReporter × Bag) (diagnostic : Diagnostic) : DedupReporter × Bag :=
  let accepted := state.1.accept diagnostic
  (accepted.1, if accepted.2 then state.2.report diagnostic else state.2)

namespace Bag

theorem reportAll_cons (bag : Bag) (first : Diagnostic) (rest : List Diagnostic) :
    bag.reportAll (first :: rest) = (bag.report first).reportAll rest := rfl

theorem reportAll_append (bag : Bag) (first second : List Diagnostic) :
    (bag.reportAll first).reportAll second = bag.reportAll (first ++ second) := List.foldl_append.symm

theorem reportAll_keeps (bag : Bag) (reports : List Diagnostic) :
    (bag.reportAll reports).limit = bag.limit ∧
      (bag.reportAll reports).items = bag.items ++ reports.take (bag.limit - bag.items.length) := by
  induction reports generalizing bag with
  | nil => simp [reportAll]
  | cons first rest ih =>
    rw [reportAll_cons]
    obtain ⟨limit, items⟩ := ih (bag.report first)
    rw [limit, items]
    unfold report add
    split
    next full => simp [Nat.sub_eq_zero_of_le full]
    next room =>
      obtain ⟨left, same⟩ : ∃ left, bag.limit - bag.items.length = left + 1 := ⟨bag.limit - bag.items.length - 1, by omega⟩
      have less : bag.limit - (bag.items.length + 1) = left := by omega
      simp [same, less]

theorem limit_empty_pos (limit : Int) : 0 < (empty limit).limit := by
  unfold empty
  dsimp only
  split
  · decide
  next sensible =>
    simp only [Bool.or_eq_true, decide_eq_true_eq, not_or] at sensible
    omega

theorem firstOfEach_sublist (seen : List Diagnostic.Identity) (items : List Diagnostic) :
    (firstOfEach seen items).Sublist items := by
  induction items generalizing seen with
  | nil => exact List.Sublist.slnil
  | cons first rest ih =>
    rw [firstOfEach]
    split
    · exact (ih _).cons _
    · exact (ih _).cons_cons _

theorem firstOfEach_distinct (seen : List Diagnostic.Identity) (items : List Diagnostic) :
    (∀ item ∈ firstOfEach seen items, item.identity ∉ seen) ∧
      (firstOfEach seen items).Pairwise fun first second => first.identity ≠ second.identity := by
  induction items generalizing seen with
  | nil => simp [firstOfEach]
  | cons first rest ih =>
    rw [firstOfEach]
    split
    · exact ih seen
    next fresh =>
      obtain ⟨new, distinct⟩ := ih (first.identity :: seen)
      refine ⟨List.forall_mem_cons.mpr ⟨fresh, fun item member inside => ?_⟩, List.pairwise_cons.mpr ⟨fun item member => ?_,
        distinct⟩⟩
      · exact new item member (List.mem_cons_of_mem _ inside)
      · exact fun same => new item member (same ▸ List.mem_cons_self)

theorem find?_firstOfEach {seen : List Diagnostic.Identity} {identity : Diagnostic.Identity} (fresh : identity ∉ seen)
    (items : List Diagnostic) :
    (firstOfEach seen items).find? (·.identity = identity) = items.find? (·.identity = identity) := by
  induction items generalizing seen with
  | nil => rfl
  | cons first rest ih =>
    rw [firstOfEach]
    by_cases same : first.identity = identity
    · simp [same, fresh]
    · split
      · simpa [same] using ih fresh
      · have fresh : identity ∉ first.identity :: seen := List.not_mem_cons_of_ne_of_not_mem (Ne.symm same) fresh
        simpa [same] using ih fresh

theorem firstOfEach_eq_self {seen : List Diagnostic.Identity} {items : List Diagnostic}
    (fresh : ∀ item ∈ items, item.identity ∉ seen)
    (distinct : items.Pairwise fun first second => first.identity ≠ second.identity) : firstOfEach seen items = items := by
  induction items generalizing seen with
  | nil => rfl
  | cons first rest ih =>
    obtain ⟨others, distinct⟩ := List.pairwise_cons.mp distinct
    rw [firstOfEach, if_neg (fresh first List.mem_cons_self), ih (fun item member => ?_) distinct]
    exact List.not_mem_cons_of_ne_of_not_mem (others item member).symm (fresh item (List.mem_cons_of_mem _ member))

theorem firstOfEach_isPrefix (seen : List Diagnostic.Identity) (first second : List Diagnostic) :
    firstOfEach seen first <+: firstOfEach seen (first ++ second) := by
  induction first generalizing seen with
  | nil => exact List.nil_prefix
  | cons item rest ih =>
    rw [List.cons_append, firstOfEach, firstOfEach]
    split
    · exact ih _
    · exact (List.prefix_cons_inj _).mpr (ih _)

theorem precedes_iff {first second : Diagnostic} : precedes first second = true ↔ first.sortKey ≤ second.sortKey := by
  have ranks : first.severity = second.severity ↔ first.severity.rank.toNat = second.severity.rank.toNat := by
    rw [UInt8.toNat_inj]
    cases first.severity
    cases second.severity
    simp
  rw [← not_lt, precedes]
  simp only [Diagnostic.sortKey, List.cons_lt_cons_iff, ne_eq, ← UInt32.toNat_inj, UInt32.lt_iff_toNat_lt,
    UInt8.lt_iff_toNat_lt, UInt16.le_iff_toNat_le, ranks, List.not_lt_nil, and_false, or_false]
  repeat' split
  all_goals
    simp only [decide_eq_true_eq]
    omega

theorem precedes_trans (first second third : Diagnostic) :
    precedes first second = true → precedes second third = true → precedes first third = true := by
  simp only [precedes_iff]
  exact le_trans

theorem precedes_total (first second : Diagnostic) : (precedes first second || precedes second first) = true := by
  simp only [Bool.or_eq_true, precedes_iff]
  exact le_total _ _

theorem sort_pairwise (bag : Bag) : bag.sort.items.Pairwise fun first second => first.sortKey ≤ second.sortKey :=
  (List.pairwise_mergeSort precedes_trans precedes_total bag.items).imp precedes_iff.mp

theorem mem_sort {bag : Bag} {item : Diagnostic} : item ∈ bag.sort.items ↔ item ∈ bag.items := List.mem_mergeSort

theorem find?_sort (bag : Bag) {wanted : Diagnostic → Bool}
    (level : ∀ first second, wanted first = true → wanted second = true → first.sortKey = second.sortKey) :
    bag.sort.items.find? wanted = bag.items.find? wanted := by
  have ordered : (bag.items.filter wanted).Pairwise fun first second => precedes first second = true := by
    refine List.pairwise_of_forall_mem_list fun first here second there => precedes_iff.mpr (le_of_eq ?_)
    exact level first second (List.mem_filter.mp here).2 (List.mem_filter.mp there).2
  have same : bag.items.filter wanted = bag.sort.items.filter wanted := by
    refine List.Sublist.eq_of_length ?_ ((List.mergeSort_perm _ _).filter wanted).length_eq.symm
    have inside := (List.sublist_mergeSort precedes_trans precedes_total ordered List.filter_sublist).filter wanted
    simpa [sort] using inside
  rw [← List.head?_filter, ← List.head?_filter, same]

theorem find?_of_mem_dedup {bag : Bag} {chosen : Diagnostic} (member : chosen ∈ bag.dedup.items) :
    bag.items.find? (·.identity = chosen.identity) = some chosen := by
  have distinct : bag.dedup.items.Pairwise fun first second => first.identity ≠ second.identity :=
    (firstOfEach_distinct [] bag.items).2
  rw [← find?_firstOfEach List.not_mem_nil, List.find?_eq_some_iff_append]
  obtain ⟨before, after, split⟩ := List.append_of_mem member
  refine ⟨decide_eq_true rfl, before, after, split, fun item inside => ?_⟩
  have apart := (List.pairwise_append.mp (split ▸ distinct)).2.2 item inside chosen List.mem_cons_self
  simpa using apart

theorem rank_le_of_sortKey_le {first second : Diagnostic} (same : first.identity = second.identity)
    (before : first.sortKey ≤ second.sortKey) : second.severity.rank ≤ first.severity.rank := by
  have span : first.span = second.span := congrArg Diagnostic.Identity.span same
  by_cases level : first.severity = second.severity
  · exact level ▸ UInt8.le_refl _
  · rw [← precedes_iff] at before
    simp only [precedes, span, level, ne_eq, not_true, not_false_eq_true, if_true, if_false, decide_eq_true_eq] at before
    exact UInt8.le_of_lt before

theorem exists_mem_sort_dedup {bag : Bag} {item : Diagnostic} (member : item ∈ bag.items) :
    ∃ chosen ∈ bag.sort.dedup.items, chosen.identity = item.identity ∧ item.severity.rank ≤ chosen.severity.rank := by
  have sorted := mem_sort.mpr member
  obtain ⟨chosen, found⟩ : ∃ chosen, bag.sort.items.find? (·.identity = item.identity) = some chosen :=
    Option.isSome_iff_exists.mp (List.find?_isSome.mpr ⟨item, sorted, decide_eq_true rfl⟩)
  obtain ⟨same, before, after, split, other⟩ := List.find?_eq_some_iff_append.mp found
  have same : chosen.identity = item.identity := of_decide_eq_true same
  refine ⟨chosen, ?_, same, ?_⟩
  · rw [← find?_firstOfEach List.not_mem_nil] at found
    exact List.mem_of_find?_eq_some found
  · -- whatever says the same stands behind the chosen one, and there nothing is worse
    rw [split] at sorted
    rcases List.mem_append.mp sorted with early | late
    · have apart := other item early
      simp at apart
    · rcases List.mem_cons.mp late with rfl | late
      · exact UInt8.le_refl _
      · have ordered := (List.pairwise_append.mp (split ▸ sort_pairwise bag)).2.1
        exact rank_le_of_sortKey_le same (List.rel_of_pairwise_cons ordered late)

theorem hasErrors_iff {bag : Bag} : bag.hasErrors = true ↔ ∃ item ∈ bag.items, item.isError = true := List.any_eq_true

theorem hasErrors_sort_dedup (bag : Bag) : bag.sort.dedup.hasErrors = bag.hasErrors := by
  rw [Bool.eq_iff_iff, hasErrors_iff, hasErrors_iff]
  constructor
  · rintro ⟨item, kept, error⟩
    exact ⟨item, mem_sort.mp ((firstOfEach_sublist _ _).subset kept), error⟩
  · rintro ⟨item, member, error⟩
    obtain ⟨chosen, inside, -, worse⟩ := exists_mem_sort_dedup member
    refine ⟨chosen, inside, ?_⟩
    simp only [Diagnostic.isError, Severity.isError, decide_eq_true_eq] at error ⊢
    exact UInt8.le_trans error worse

theorem hasErrors_append {bag : Bag} {item : Diagnostic} (harmless : item.isError = false) :
    (bag.append item).hasErrors = bag.hasErrors := by
  simp [append, hasErrors, harmless]

/-- Sorting a bag and leaving out what is said twice leaves reports in order that all differ. For each report there is
one that says the same and is as bad, which is the first of its severity; errors stay, and nothing is left to do. -/
theorem sort_dedup_keeps_worst (bag : Bag) :
    let kept := bag.sort.dedup
    (kept.items.Pairwise fun first second => first.sortKey ≤ second.sortKey ∧ first.identity ≠ second.identity) ∧
      (∀ item ∈ bag.items, ∃ chosen ∈ kept.items,
        chosen.identity = item.identity ∧ item.severity.rank ≤ chosen.severity.rank) ∧
      (∀ chosen ∈ kept.items, bag.items.find? (fun item =>
        item.identity = chosen.identity ∧ item.severity = chosen.severity) = some chosen) ∧
      kept.hasErrors = bag.hasErrors ∧ kept.sort.dedup = kept := by
  intro kept
  have distinct : kept.items.Pairwise fun first second => first.identity ≠ second.identity :=
    (firstOfEach_distinct [] bag.sort.items).2
  have ordered : kept.items.Pairwise fun first second => first.sortKey ≤ second.sortKey :=
    (sort_pairwise bag).sublist (firstOfEach_sublist _ _)
  refine ⟨ordered.and distinct, fun item => exists_mem_sort_dedup, fun chosen member => ?_, hasErrors_sort_dedup bag, ?_⟩
  · rw [← find?_sort]
    · obtain ⟨-, before, after, split, other⟩ := List.find?_eq_some_iff_append.mp (find?_of_mem_dedup member)
      refine List.find?_eq_some_iff_append.mpr ⟨by simp, before, after, split, fun item inside => ?_⟩
      have apart : item.identity ≠ chosen.identity := by simpa using other item inside
      simp [apart]
    · intro first second here there
      simp only [decide_eq_true_eq, Diagnostic.identity, Diagnostic.Identity.mk.injEq] at here there
      simp only [Diagnostic.sortKey, here, there]
  · have sorted : kept.sort = kept := by
      have settled := List.mergeSort_of_pairwise (ordered.imp precedes_iff.mpr)
      rw [sort, settled]
    rw [sorted, dedup, firstOfEach_eq_self (fun _ _ => List.not_mem_nil) distinct]

theorem foldl_report_eq (reporter : DedupReporter) (bag : Bag) (reports : List Diagnostic) :
    (reports.foldl DedupReporter.report (reporter, bag)).2 = bag.reportAll (firstOfEach reporter.seen reports) := by
  induction reports generalizing reporter bag with
  | nil => rfl
  | cons first rest ih =>
    rw [List.foldl_cons, DedupReporter.report, ih, firstOfEach, DedupReporter.accept]
    split <;> rfl

/-- Passing on each report once fills a bag with what would be left of the reports; where the limit is in the way, with
more than that. -/
theorem report_once_eq_dedup (limit : Nat) (reports : List Diagnostic) :
    let fresh : Bag := { limit }
    let passed := (reports.foldl DedupReporter.report ({}, fresh)).2
    let direct := (fresh.reportAll reports).dedup
    (reports.length ≤ limit → passed.items = direct.items) ∧ direct.items <+: passed.items := by
  intro fresh passed direct
  have filled (reports : List Diagnostic) : (fresh.reportAll reports).items = reports.take limit :=
    (reportAll_keeps fresh reports).2
  have passed_eq : passed.items = (firstOfEach [] reports).take limit := by
    rw [← filled]
    exact congrArg items (foldl_report_eq {} fresh reports)
  have direct_eq : direct.items = firstOfEach [] (reports.take limit) := congrArg (firstOfEach []) (filled reports)
  rw [passed_eq, direct_eq]
  constructor
  · intro few
    rw [List.take_of_length_le few, List.take_of_length_le ((firstOfEach_sublist [] reports).length_le.trans few)]
  · have early := firstOfEach_isPrefix [] (reports.take limit) (reports.drop limit)
    rw [List.take_append_drop] at early
    refine List.prefix_take_iff.mpr ⟨early, ?_⟩
    exact (firstOfEach_sublist [] _).length_le.trans (List.length_take_le _ _)

end Bag
end GenericC
