import Mathlib.Data.List.Sort
import Mathlib.Data.Prod.Lex

/-!
# Greedy matching of two sides

Demands are served in turn, each with the first offer that is allowed for it and
was not taken before. The demands and the offers come in the order of a stable
sort, which the input determines up to its order among equals.
-/
namespace CkbDex.GreedyMatching

section
variable {α ρ : Type*} [LinearOrder ρ] {rank : α → ρ} {l l₁ l₂ : List α}

/-- Equals stay in the order they had. -/
theorem filter_insertionSort (rank : α → ρ) (k : ρ) (l : List α) :
    (l.insertionSort fun a b => rank a ≤ rank b).filter (fun a => rank a = k) =
      l.filter fun a => rank a = k := by
  have hequal : (l.filter fun a => rank a = k).Pairwise fun a b => rank a ≤ rank b := by
    refine List.pairwise_of_forall_mem_list fun a ha b hb => ?_
    rw [List.mem_filter, decide_eq_true_eq] at ha hb
    rw [ha.2, hb.2]
  have hsublist := (List.sublist_insertionSort hequal List.filter_sublist).filter fun a => rank a = k
  simp only [List.filter_filter, Bool.and_self] at hsublist
  refine (hsublist.eq_of_length ?_).symm
  exact ((List.perm_insertionSort _ l).filter _).length_eq.symm

theorem eq_of_filter_eq (h₁ : l₁.Pairwise fun a b => rank a ≤ rank b)
    (h₂ : l₂.Pairwise fun a b => rank a ≤ rank b)
    (hfilter : ∀ k, l₁.filter (fun a => rank a = k) = l₂.filter fun a => rank a = k) : l₁ = l₂ := by
  have hmem : ∀ a, a ∈ l₁ ↔ a ∈ l₂ := by
    intro a
    have hclass := congrArg (a ∈ ·) (hfilter (rank a))
    simpa using hclass
  induction l₁ generalizing l₂ with
  | nil =>
      cases l₂ with
      | nil => rfl
      | cons b l₂ => simpa using hmem b
  | cons a l₁ ih =>
      cases l₂ with
      | nil => simpa using hmem a
      | cons b l₂ =>
          obtain ⟨ha, htail₁⟩ := List.pairwise_cons.mp h₁
          obtain ⟨hb, htail₂⟩ := List.pairwise_cons.mp h₂
          -- Both heads have the least rank.
          have hrank : rank a = rank b := by
            apply le_antisymm
            · rcases List.mem_cons.mp ((hmem b).mpr List.mem_cons_self) with rfl | hmem
              · exact le_rfl
              · exact ha b hmem
            · rcases List.mem_cons.mp ((hmem a).mp List.mem_cons_self) with rfl | hmem
              · exact le_rfl
              · exact hb a hmem
          have hhead := hfilter (rank b)
          rw [List.filter_cons_of_pos (by simpa using hrank), List.filter_cons_of_pos (by simp)] at hhead
          obtain ⟨rfl, -⟩ := List.cons_eq_cons.mp hhead
          have htails : ∀ k, l₁.filter (fun a => rank a = k) = l₂.filter fun a => rank a = k := by
            intro k
            have hk := hfilter k
            simp only [List.filter_cons] at hk
            split_ifs at hk
            · exact (List.cons_eq_cons.mp hk).2
            · exact hk
          refine congrArg (a :: ·) (ih htail₁ htail₂ htails fun c => ?_)
          have hclass := congrArg (c ∈ ·) (htails (rank c))
          simpa using hclass

/-- The sort depends on the order of equals only. -/
theorem insertionSort_congr
    (hfilter : ∀ k, l₁.filter (fun a => rank a = k) = l₂.filter fun a => rank a = k) :
    (l₁.insertionSort fun a b => rank a ≤ rank b) = l₂.insertionSort fun a b => rank a ≤ rank b := by
  have hsorted : ∀ l : List α,
      (l.insertionSort fun a b => rank a ≤ rank b).Pairwise fun a b => rank a ≤ rank b := fun l =>
    have : Std.Total fun a b => rank a ≤ rank b := ⟨fun a b => le_total (rank a) (rank b)⟩
    have : IsTrans α fun a b => rank a ≤ rank b := ⟨fun _ _ _ => le_trans⟩
    List.pairwise_insertionSort _ l
  refine eq_of_filter_eq (hsorted l₁) (hsorted l₂) fun k => ?_
  rw [filter_insertionSort, filter_insertionSort, hfilter]

end

section
variable {α ρ : Type*} [LinearOrder ρ]

/-- Puts an element before the first of greater rank. -/
def insertBehind (rank : α → ρ) (a : α) : List α → List α
  | [] => [a]
  | b :: l => if rank a < rank b then a :: b :: l else b :: insertBehind rank a l

/-- Inserting before the ranks that are not less and behind those that are not
greater can be done in either order. -/
theorem orderedInsert_insertBehind (rank : α → ρ) (a b : α) (l : List α) :
    (insertBehind rank b l).orderedInsert (fun a b => rank a ≤ rank b) a =
      insertBehind rank b (l.orderedInsert (fun a b => rank a ≤ rank b) a) := by
  induction l with
  | nil =>
      simp only [insertBehind, List.orderedInsert_cons, List.orderedInsert_nil]
      grind
  | cons c l ih =>
      rcases lt_or_ge (rank b) (rank c) with hbc | hcb
      · simp only [insertBehind, if_pos hbc, List.orderedInsert_cons]
        grind [insertBehind]
      · simp only [insertBehind, if_neg hcb.not_gt, List.orderedInsert_cons]
        grind [insertBehind]

/-- A stable sort may insert the elements from the left. -/
theorem insertionSort_concat (rank : α → ρ) (l : List α) (a : α) :
    (l ++ [a]).insertionSort (fun a b => rank a ≤ rank b) =
      insertBehind rank a (l.insertionSort fun a b => rank a ≤ rank b) := by
  induction l with
  | nil => rfl
  | cons b l ih =>
      rw [List.cons_append, List.insertionSort_cons, ih, orderedInsert_insertBehind, List.insertionSort_cons]

end

section
variable {δ ο κ : Type*} [DecidableEq κ] {allowed : δ → ο → Bool} {key : ο → κ} {offers : List ο}
  {demands : List δ} {taken : List κ} {demand : δ} {offer other : ο}

/-- Each demand gets the first allowed offer that is not taken. -/
def serve (allowed : δ → ο → Bool) (key : ο → κ) (offers : List ο) : List κ → List δ → List (δ × ο)
  | _, [] => []
  | taken, demand :: demands =>
      match offers.find? fun offer => key offer ∉ taken && allowed demand offer with
      | none => serve allowed key offers taken demands
      | some offer => (demand, offer) :: serve allowed key offers (key offer :: taken) demands

/-- What is found for a demand: nothing, or the first of what there is. -/
theorem find_cases (allowed : δ → ο → Bool) (key : ο → κ) (offers : List ο) (taken : List κ)
    (demand : δ) :
    (offers.find? fun offer => key offer ∉ taken && allowed demand offer) = none ∧
        (∀ offer ∈ offers, key offer ∉ taken → allowed demand offer = false) ∨
      ∃ offer before after,
        (offers.find? fun offer => key offer ∉ taken && allowed demand offer) = some offer ∧
          offers = before ++ offer :: after ∧ key offer ∉ taken ∧ allowed demand offer = true ∧
          ∀ other ∈ before, key other ∉ taken → allowed demand other = false := by
  cases hfind : offers.find? fun offer => key offer ∉ taken && allowed demand offer with
  | none =>
      refine Or.inl ⟨rfl, fun offer hmem hfree => ?_⟩
      simpa [hfree] using List.find?_eq_none.mp hfind offer hmem
  | some offer =>
      obtain ⟨hoffer, before, after, heq, hbefore⟩ := List.find?_eq_some_iff_append.mp hfind
      simp only [Bool.and_eq_true, decide_eq_true_eq] at hoffer
      refine Or.inr ⟨offer, before, after, rfl, heq, hoffer.1, hoffer.2, fun other hmem hfree => ?_⟩
      simpa [hfree] using hbefore other hmem

theorem mem_serve (h : (demand, offer) ∈ serve allowed key offers taken demands) :
    demand ∈ demands ∧ offer ∈ offers ∧ key offer ∉ taken ∧ allowed demand offer = true := by
  induction demands generalizing taken with
  | nil => cases h
  | cons first demands ih =>
      rw [serve] at h
      rcases find_cases allowed key offers taken first with
        ⟨hfind, -⟩ | ⟨found, before, after, hfind, heq, hfree, hallowed, -⟩ <;> rw [hfind] at h
      · exact (ih h).imp_left (List.mem_cons_of_mem _)
      · rcases List.mem_cons.mp h with heq' | h
        · obtain ⟨rfl, rfl⟩ := Prod.mk.inj heq'
          exact ⟨List.mem_cons_self, by simp [heq], hfree, hallowed⟩
        · obtain ⟨hdemand, hoffer, hkey, hallowed⟩ := ih h
          exact ⟨List.mem_cons_of_mem _ hdemand, hoffer, fun hmem => hkey (List.mem_cons_of_mem _ hmem),
            hallowed⟩

/-- The demands are served in turn. -/
theorem serve_sublist (allowed : δ → ο → Bool) (key : ο → κ) (offers : List ο) (taken : List κ)
    (demands : List δ) : ((serve allowed key offers taken demands).map Prod.fst).Sublist demands := by
  induction demands generalizing taken with
  | nil => exact List.Sublist.slnil
  | cons first demands ih =>
      rw [serve]
      split
      · exact (ih taken).cons first
      · exact (ih _).cons_cons first

/-- No offer is given twice. -/
theorem serve_nodup (allowed : δ → ο → Bool) (key : ο → κ) (offers : List ο) (taken : List κ)
    (demands : List δ) :
    ((serve allowed key offers taken demands).map fun pair => key pair.2).Nodup := by
  induction demands generalizing taken with
  | nil => exact List.nodup_nil
  | cons first demands ih =>
      rw [serve]
      split
      · exact ih taken
      · refine List.nodup_cons.mpr ⟨fun hmem => ?_, ih _⟩
        obtain ⟨pair, hpair, hkey⟩ := List.mem_map.mp hmem
        exact (mem_serve hpair).2.2.1 (by simp [hkey])

/-- An allowed offer of a demand that gets nothing was given to a demand before it. -/
theorem served_before (hkey : ∀ a ∈ offers, ∀ b ∈ offers, key a = key b → a = b)
    (hdemand : demand ∈ demands)
    (hunserved : ∀ offer, (demand, offer) ∉ serve allowed key offers taken demands)
    (hoffer : offer ∈ offers) (hfree : key offer ∉ taken) (hallowed : allowed demand offer = true) :
    ∃ first, (first, offer) ∈ serve allowed key offers taken demands ∧ [first, demand].Sublist demands := by
  induction demands generalizing taken with
  | nil => cases hdemand
  | cons first demands ih =>
      rw [serve] at hunserved ⊢
      rcases find_cases allowed key offers taken first with
        ⟨hfind, hnone⟩ | ⟨found, before, after, hfind, heq, -, -, -⟩ <;> simp only [hfind] at hunserved ⊢
      · rcases List.mem_cons.mp hdemand with rfl | hdemand
        · rw [hnone offer hoffer hfree] at hallowed
          cases hallowed
        · obtain ⟨earlier, hserved, hsublist⟩ := ih hdemand hunserved hfree
          exact ⟨earlier, hserved, hsublist.cons first⟩
      · have hlater : demand ∈ demands := by
          rcases List.mem_cons.mp hdemand with rfl | hdemand
          · exact (hunserved found List.mem_cons_self).elim
          · exact hdemand
        by_cases hsame : key offer = key found
        · obtain rfl := hkey offer hoffer found (by simp [heq]) hsame
          exact ⟨first, List.mem_cons_self, (List.singleton_sublist.mpr hlater).cons_cons first⟩
        · obtain ⟨earlier, hserved, hsublist⟩ := ih hlater
            (fun offer hmem => hunserved offer (List.mem_cons_of_mem _ hmem))
            (by simp [hsame, hfree])
          exact ⟨earlier, List.mem_cons_of_mem _ hserved, hsublist.cons first⟩

/-- An allowed offer that comes before the one a demand gets was given before. -/
theorem given_before {ρ : Type*} [LinearOrder ρ] {rank : ο → ρ}
    (hsorted : offers.Pairwise fun a b => rank a ≤ rank b)
    (hkey : ∀ a ∈ offers, ∀ b ∈ offers, key a = key b → a = b)
    (h : (demand, offer) ∈ serve allowed key offers taken demands) (hother : other ∈ offers)
    (hfree : key other ∉ taken) (hallowed : allowed demand other = true) (hlt : rank other < rank offer) :
    ∃ first, [(first, other), (demand, offer)].Sublist (serve allowed key offers taken demands) := by
  induction demands generalizing taken with
  | nil => cases h
  | cons first demands ih =>
      rw [serve] at h ⊢
      rcases find_cases allowed key offers taken first with
        ⟨hfind, -⟩ | ⟨found, before, after, hfind, heq, -, -, hbefore⟩ <;> simp only [hfind] at h ⊢
      · exact ih h hfree
      · rcases List.mem_cons.mp h with heq' | h
        · -- What the demand finds is the first there is.
          obtain ⟨rfl, rfl⟩ := Prod.mk.inj heq'
          have hlate : other ∉ before := fun hmem => by
            rw [hbefore other hmem hfree] at hallowed
            cases hallowed
          rw [heq, List.mem_append, List.mem_cons] at hother
          rcases hother with hother | rfl | hother
          · exact (hlate hother).elim
          · exact (lt_irrefl _ hlt).elim
          · rw [heq, List.pairwise_append, List.pairwise_cons] at hsorted
            exact ((hsorted.2.1.1 other hother).not_gt hlt).elim
        · by_cases hsame : key other = key found
          · obtain rfl := hkey other hother found (by simp [heq]) hsame
            exact ⟨first, (List.singleton_sublist.mpr h).cons_cons _⟩
          · obtain ⟨earlier, hsublist⟩ := ih h (by simp [hsame, hfree])
            exact ⟨earlier, hsublist.cons _⟩

/-- Where everything is allowed, the first demand gets the first offer. -/
theorem head?_serve (hall : ∀ demand ∈ demands, ∀ offer ∈ offers, allowed demand offer = true) :
    (serve allowed key offers [] demands).head? =
      demands.head?.bind fun demand => offers.head?.map fun offer => (demand, offer) := by
  cases demands with
  | nil => rfl
  | cons first demands =>
      cases offers with
      | nil =>
          have hnone : ∀ (taken : List κ) (demands : List δ), serve allowed key [] taken demands = [] := by
            intro taken demands
            induction demands with
            | nil => rfl
            | cons demand demands ih => simpa [serve] using ih
          simp [hnone]
      | cons offer offers =>
          have hfirst := hall first List.mem_cons_self offer List.mem_cons_self
          simp [serve, hfirst]

end

end CkbDex.GreedyMatching
