import SearchSelect.DocId
import SearchSelect.Response

/-! The order of a ranking, said without sorting: the documents with the first key of the ranking,
then those with the next one, and so on, and last the documents that are not ranked. Sorting by
place gives exactly this list, since a stable sort is determined by what it keeps of each place.
What a ranking moves and what it keeps is read off the places too. -/

namespace SearchSelect

variable {α : Type}

/-! ## Stable sorting -/

section Stable

variable {rank : α → Nat} {as bs : List α}

theorem filter_rank_eq_nil {a : α} {k : Nat} (sorted : (a :: as).Pairwise fun a b => rank a ≤ rank b)
    (below : k < rank a) : (a :: as).filter (fun b => rank b = k) = [] := by
  apply List.filter_eq_nil_iff.mpr
  intro b hb
  have least : rank a ≤ rank b := by
    obtain rfl | hb := List.mem_cons.mp hb
    · exact Nat.le_refl _
    · exact List.rel_of_pairwise_cons sorted hb
  simp only [decide_eq_true_eq]
  omega

/-- Sorted lists that agree on every rank are equal. -/
theorem eq_of_filter_rank (sa : as.Pairwise fun a b => rank a ≤ rank b)
    (sb : bs.Pairwise fun a b => rank a ≤ rank b)
    (agree : ∀ k, as.filter (fun a => rank a = k) = bs.filter fun a => rank a = k) : as = bs := by
  induction as generalizing bs with
  | nil =>
    cases bs with
    | nil => rfl
    | cons b bs =>
      have head := agree (rank b)
      simp at head
  | cons a as ih =>
    cases bs with
    | nil =>
      have head := agree (rank a)
      simp at head
    | cons b bs =>
      have same : rank a = rank b := by
        by_cases below : rank a < rank b
        · have none := agree (rank a)
          rw [filter_rank_eq_nil sb below] at none
          simp at none
        · by_cases above : rank b < rank a
          · have none := agree (rank b)
            rw [filter_rank_eq_nil sa above] at none
            simp at none
          · omega
      have first : a = b := by
        have head := agree (rank a)
        simp only [List.filter_cons, same] at head
        simpa using congrArg List.head? head
      subst first
      have tails : as = bs := by
        apply ih sa.of_cons sb.of_cons
        intro k
        have rest := agree k
        simp only [List.filter_cons] at rest
        by_cases hk : rank a = k
        · simpa [hk] using rest
        · simpa [hk] using rest
      rw [tails]

theorem rank_trans (rank : α → Nat) (a b c : α) (hab : decide (rank a ≤ rank b) = true)
    (hbc : decide (rank b ≤ rank c) = true) : decide (rank a ≤ rank c) = true := by
  simp only [decide_eq_true_eq] at hab hbc ⊢
  omega

theorem rank_total (rank : α → Nat) (a b : α) :
    (decide (rank a ≤ rank b) || decide (rank b ≤ rank a)) = true := by
  simp only [Bool.or_eq_true, decide_eq_true_eq]
  omega

theorem sorted_mergeSort (rank : α → Nat) (as : List α) :
    (as.mergeSort fun a b => rank a ≤ rank b).Pairwise fun a b => rank a ≤ rank b := by
  have sorted := List.pairwise_mergeSort (rank_trans rank) (rank_total rank) as
  exact sorted.imp fun h => of_decide_eq_true h

/-- Sorting keeps what there is of each rank, in its order. -/
theorem filter_mergeSort (rank : α → Nat) (as : List α) (k : Nat) :
    (as.mergeSort fun a b => rank a ≤ rank b).filter (fun a => rank a = k) =
      as.filter fun a => rank a = k := by
  have level : (as.filter fun a => rank a = k).Pairwise fun a b => decide (rank a ≤ rank b) = true := by
    apply List.pairwise_of_forall_mem_list
    intro a ha b hb
    have ka : rank a = k := by simpa using (List.mem_filter.mp ha).2
    have kb : rank b = k := by simpa using (List.mem_filter.mp hb).2
    simp [ka, kb]
  have kept := (List.sublist_mergeSort (rank_trans rank) (rank_total rank) level
    List.filter_sublist).filter fun a => decide (rank a = k)
  have count : (as.filter fun a => rank a = k).length =
      ((as.mergeSort fun a b => rank a ≤ rank b).filter fun a => rank a = k).length :=
    ((List.mergeSort_perm as _).filter _).length_eq.symm
  simp only [List.filter_filter, Bool.and_self] at kept
  exact (kept.eq_of_length count).symm

/-- What is picked from a single rank keeps its order. -/
theorem filter_mergeSort_of_rank {p : α → Bool} {k : Nat} (level : ∀ a, p a → rank a = k)
    (as : List α) : (as.mergeSort fun a b => rank a ≤ rank b).filter p = as.filter p := by
  have picked (as : List α) : (as.filter fun a => rank a = k).filter p = as.filter p := by
    rw [List.filter_filter]
    apply List.filter_congr
    intro a _
    cases h : p a with
    | false => rfl
    | true => simp [level a h]
  rw [← picked, filter_mergeSort, picked]

end Stable

/-! ## Rankings -/

namespace Response

variable {key : Doc → Option String} {docs : List Doc}

def ranked (key : Doc → Option String) : List String → List Doc → List Doc
  | [], docs => docs
  | k :: ks, docs =>
    (docs.filter fun d => key d = some k) ++ ranked key ks (docs.filter fun d => key d ≠ some k)

theorem place_nil (key : Doc → Option String) (d : Doc) : place [] key d = 0 := by
  unfold place
  cases key d <;> rfl

theorem place_cons (k : String) (ks : List String) (key : Doc → Option String) (d : Doc) :
    place (k :: ks) key d = if key d = some k then 0 else place ks key d + 1 := by
  unfold place
  cases h : key d with
  | none => simp
  | some k' =>
    by_cases same : k' = k
    · simp [same]
    · have other : (k == k') = false := by simpa using Ne.symm same
      simp [same, other, List.idxOf_cons]

theorem ranked_perm (ks : List String) (docs : List Doc) : (ranked key ks docs).Perm docs := by
  induction ks generalizing docs with
  | nil => exact List.Perm.refl _
  | cons k ks ih =>
    have split := List.filter_append_perm (fun d => decide (key d = some k)) docs
    simp only [← decide_not] at split
    exact ((ih _).append_left _).trans split

theorem place_first {k : String} {ks : List String} {d : Doc}
    (h : d ∈ docs.filter fun d => key d = some k) : place (k :: ks) key d = 0 := by
  have first : key d = some k := by simpa using (List.mem_filter.mp h).2
  rw [place_cons, if_pos first]

theorem place_later {k : String} {ks : List String} {d : Doc}
    (h : d ∈ ranked key ks (docs.filter fun d => key d ≠ some k)) :
    place (k :: ks) key d = place ks key d + 1 := by
  have later := (ranked_perm ks _).mem_iff.mp h
  have other : key d ≠ some k := by simpa using (List.mem_filter.mp later).2
  rw [place_cons, if_neg other]

theorem ranked_sorted (ks : List String) (docs : List Doc) :
    (ranked key ks docs).Pairwise fun a b => place ks key a ≤ place ks key b := by
  induction ks generalizing docs with
  | nil =>
    apply List.pairwise_of_forall
    intro a b
    exact Nat.le_of_eq (by rw [place_nil, place_nil])
  | cons k ks ih =>
    unfold ranked
    rw [List.pairwise_append]
    refine ⟨?_, ?_, ?_⟩
    · apply List.pairwise_of_forall_mem_list
      intro a ha b _
      rw [place_first ha]
      exact Nat.zero_le _
    · apply (ih _).imp_of_mem
      intro a b ha hb le
      rw [place_later ha, place_later hb]
      exact Nat.add_le_add_right le 1
    · intro a ha b _
      rw [place_first ha]
      exact Nat.zero_le _

theorem ranked_filter (ks : List String) (docs : List Doc) (n : Nat) :
    (ranked key ks docs).filter (fun d => place ks key d = n) =
      docs.filter fun d => place ks key d = n := by
  induction ks generalizing docs n with
  | nil => rfl
  | cons k ks ih =>
    unfold ranked
    rw [List.filter_append]
    cases n with
    | zero =>
      have first : (docs.filter fun d => key d = some k).filter
          (fun d => place (k :: ks) key d = 0) = docs.filter fun d => key d = some k := by
        apply List.filter_eq_self.mpr
        intro d hd
        simp [place_first hd]
      have later : (ranked key ks (docs.filter fun d => key d ≠ some k)).filter
          (fun d => place (k :: ks) key d = 0) = [] := by
        apply List.filter_eq_nil_iff.mpr
        intro d hd
        simp [place_later hd]
      have whole : docs.filter (fun d => place (k :: ks) key d = 0) =
          docs.filter fun d => key d = some k := by
        apply List.filter_congr
        intro d _
        by_cases h : key d = some k <;> simp [place_cons, h]
      rw [first, later, whole, List.append_nil]
    | succ n =>
      have first : (docs.filter fun d => key d = some k).filter
          (fun d => place (k :: ks) key d = n + 1) = [] := by
        apply List.filter_eq_nil_iff.mpr
        intro d hd
        simp [place_first hd]
      have later : (ranked key ks (docs.filter fun d => key d ≠ some k)).filter
          (fun d => place (k :: ks) key d = n + 1) =
          (ranked key ks (docs.filter fun d => key d ≠ some k)).filter
            fun d => place ks key d = n := by
        apply List.filter_congr
        intro d hd
        simp [place_later hd]
      have whole : docs.filter (fun d => place (k :: ks) key d = n + 1) =
          (docs.filter fun d => key d ≠ some k).filter fun d => place ks key d = n := by
        rw [List.filter_filter]
        apply List.filter_congr
        intro d _
        by_cases h : key d = some k <;> simp [place_cons, h]
      rw [first, later, ih, whole, List.nil_append]

/-- Sorting by place puts the ranked documents first, key by key, and loses nothing. -/
theorem reorder_docs (r : Response) (ks : List String) (key : Doc → Option String) :
    (r.reorder ks key).docs = ranked key ks r.docs := by
  apply eq_of_filter_rank (sorted_mergeSort (place ks key) r.docs) (ranked_sorted ks r.docs)
  intro k
  rw [filter_mergeSort, ranked_filter]

/-! ## What a ranking keeps -/

/-- The document has a key, and the ranking names it. -/
def IsRanked (ranking : List String) (key : Doc → Option String) (doc : Doc) : Prop :=
  ∃ k ∈ ranking, key doc = some k

instance (ranking : List String) (key : Doc → Option String) :
    DecidablePred (IsRanked ranking key) := fun doc =>
  inferInstanceAs (Decidable (∃ k ∈ ranking, key doc = some k))

section Kept

variable {ranking : List String} {d : Doc}

theorem place_of_key {k : String} (h : key d = some k) :
    place ranking key d = ranking.idxOf k := by
  rw [place, h]

theorem isRanked_iff : IsRanked ranking key d ↔ place ranking key d < ranking.length := by
  cases h : key d with
  | none => simp [IsRanked, place, h]
  | some k => simp [IsRanked, place_of_key h, h, List.idxOf_lt_length_iff]

theorem place_of_unranked (h : ¬ IsRanked ranking key d) :
    place ranking key d = ranking.length := by
  cases hk : key d with
  | none => rw [place, hk]
  | some k =>
    rw [place_of_key hk]
    exact List.idxOf_eq_length fun named => h ⟨k, named, hk⟩

variable (r : Response) (ranking : List String) (key : Doc → Option String)

theorem reorder_sorted :
    (r.reorder ranking key).docs.Pairwise fun a b => place ranking key a ≤ place ranking key b :=
  sorted_mergeSort (place ranking key) r.docs

theorem reorder_reorder :
    (r.reorder ranking key).reorder ranking key = r.reorder ranking key := by
  have again : ((r.reorder ranking key).reorder ranking key).docs =
      (r.reorder ranking key).docs := by
    apply List.mergeSort_of_pairwise
    exact (reorder_sorted r ranking key).imp fun le => decide_eq_true le
  exact congrArg (fun docs => { r with docs }) again

/-- Ranking moves documents and changes nothing else. No document that is not ranked comes before
one that is, and ranked ones follow the first positions of their keys. Documents with the same
key, and those that are not ranked, keep their order. A second time it moves nothing. -/
theorem reorder_ranks :
    (r.reorder ranking key).docs.Perm r.docs ∧
      (r.reorder ranking key).docs.Pairwise
        (fun a b => IsRanked ranking key b → IsRanked ranking key a) ∧
      (r.reorder ranking key).docs.Pairwise (fun a b => ∀ k ∈ ranking, ∀ l ∈ ranking,
        key a = some k → key b = some l → ranking.idxOf k ≤ ranking.idxOf l) ∧
      (∀ k, (r.reorder ranking key).docs.filter (fun d => key d = some k) =
        r.docs.filter fun d => key d = some k) ∧
      (r.reorder ranking key).docs.filter (fun d => ¬ IsRanked ranking key d) =
        r.docs.filter (fun d => ¬ IsRanked ranking key d) ∧
      r.reorder ranking key = { r with docs := (r.reorder ranking key).docs } ∧
      (r.reorder ranking key).reorder ranking key = r.reorder ranking key := by
  have sorted := reorder_sorted r ranking key
  refine ⟨List.mergeSort_perm _ _, ?_, ?_, fun k => ?_, ?_, rfl, reorder_reorder r ranking key⟩
  · apply sorted.imp
    intro a b le
    rw [isRanked_iff, isRanked_iff]
    exact Nat.lt_of_le_of_lt le
  · apply sorted.imp
    intro a b le k _ l _ ka lb
    rwa [place_of_key ka, place_of_key lb] at le
  · apply filter_mergeSort_of_rank
    intro d hd
    exact place_of_key (of_decide_eq_true hd)
  · apply filter_mergeSort_of_rank
    intro d hd
    exact place_of_unranked (of_decide_eq_true hd)

/-- Two documents share a key, two have none that is ranked, and the ranking repeats itself. -/
def mixed : Response where
  numFound := 9
  start := 4
  maxScore := none
  docs := [[("id", .str "z")], [("id", .str "x"), ("n", .str "1")], [],
    [("id", .str "y")], [("id", .str "x"), ("n", .str "2")]]

theorem reorder_ranks_mixed :
    (mixed.reorder ["y", "x", "y"] DocId.stored?).docs =
        [[("id", .str "y")], [("id", .str "x"), ("n", .str "1")],
          [("id", .str "x"), ("n", .str "2")], [("id", .str "z")], []] ∧
      (mixed.reorder ["y", "x", "y"] DocId.stored?).docs.Perm mixed.docs ∧
      (mixed.reorder ["y", "x", "y"] DocId.stored?).reorder ["y", "x", "y"] DocId.stored? =
        mixed.reorder ["y", "x", "y"] DocId.stored? := by
  obtain ⟨perm, -, -, -, -, -, again⟩ := reorder_ranks mixed ["y", "x", "y"] DocId.stored?
  refine ⟨?_, perm, again⟩
  rw [reorder_docs]
  with_unfolding_all rfl

end Kept

end Response

end SearchSelect
