import Mathlib.Data.List.Sort
import Mathlib.Order.WithBot

/-!
# Paging by key

Documents are listed in the order of a key. Each fetch takes the first few
documents beyond a frontier, and moves the frontier to the last of them, or to
the top when there are no more. The documents may change between two fetches.
-/
namespace CkbDex.Keyset

variable {α κ : Type} [LinearOrder κ] (key : α → κ) (passes : α → Bool)

/-- Where a traversal stands: every document up to here was listed. -/
abbrev Frontier (κ : Type) : Type := WithBot (WithTop κ)

def frontierAt (x : κ) : Frontier κ := ((x : WithTop κ) : WithBot (WithTop κ))

/-- The documents of a collection that pass, in order. -/
def listed (docs : List α) : List α := (docs.filter passes).insertionSort fun a b => key a ≤ key b

/-- The documents of a collection beyond a frontier. -/
def beyond (frontier : Frontier κ) (docs : List α) : List α :=
  listed key (fun a => passes a && decide (frontier < frontierAt (key a))) docs

/-- One page beyond the frontier, by a probe for one document more, and the next
frontier. -/
def fetch (limit : ℕ) (frontier : Frontier κ) (docs : List α) : List α × Frontier κ :=
  let rows := (beyond key passes frontier docs).take (limit + 1)
  let page := rows.take limit
  (page, if limit < rows.length then page.getLast?.elim ⊤ fun last => frontierAt (key last) else ⊤)

/-- What a traversal has listed after some fetches, and where it stands. -/
def walk (limit : ℕ) (docs : ℕ → List α) : ℕ → List α × Frontier κ
  | 0 => ([], ⊥)
  | k + 1 =>
      let before := walk limit docs k
      let fetched := fetch key passes limit before.2 (docs k)
      (before.1 ++ fetched.1, fetched.2)

theorem frontierAt_lt {x y : κ} : frontierAt x < frontierAt y ↔ x < y := by
  simp [frontierAt]

theorem frontierAt_le {x y : κ} : frontierAt x ≤ frontierAt y ↔ x ≤ y := by
  simp [frontierAt]

section
variable {key passes} {docs : List α} {a : α}

theorem mem_listed : a ∈ listed key passes docs ↔ a ∈ docs ∧ passes a = true := by
  rw [listed, List.mem_insertionSort, List.mem_filter]

/-- Documents of distinct keys are listed in strict order. -/
theorem listed_sorted (hkeys : (docs.map key).Nodup) :
    (listed key passes docs).Pairwise fun a b => key a < key b := by
  have hsorted : (listed key passes docs).Pairwise fun a b => key a ≤ key b :=
    List.pairwise_insertionSort _ _
  have hdistinct : (listed key passes docs).Pairwise fun a b => key a ≠ key b := by
    have hfiltered : ((docs.filter passes).map key).Nodup :=
      hkeys.sublist (List.filter_sublist.map key)
    have hperm : ((listed key passes docs).map key).Perm ((docs.filter passes).map key) :=
      (List.perm_insertionSort _ _).map key
    exact List.pairwise_map.mp (hperm.nodup_iff.mpr hfiltered)
  exact hsorted.imp₂ (fun a b hle hne => lt_of_le_of_ne hle hne) hdistinct

/-- Lists in strict order with the same documents are the same. -/
theorem eq_of_sorted {xs ys : List α} (hxs : xs.Pairwise fun a b => key a < key b)
    (hys : ys.Pairwise fun a b => key a < key b) (hmem : ∀ a, a ∈ xs ↔ a ∈ ys) : xs = ys := by
  have hx : xs.Nodup := hxs.imp fun {a b} hlt hab => by rw [hab] at hlt; exact lt_irrefl _ hlt
  have hy : ys.Nodup := hys.imp fun {a b} hlt hab => by rw [hab] at hlt; exact lt_irrefl _ hlt
  have hperm : xs.Perm ys := (List.perm_ext_iff_of_nodup hx hy).mpr hmem
  exact hperm.eq_of_pairwise (fun a b _ _ hab hba => absurd (lt_trans hab hba) (lt_irrefl _)) hxs hys

/-- Documents of one key are not listed twice. -/
theorem length_le_one_of_sorted {xs : List α} {x : κ} (hxs : xs.Pairwise fun a b => key a < key b)
    (hkey : ∀ a ∈ xs, key a = x) : xs.length ≤ 1 := by
  match xs, hxs, hkey with
  | [], _, _ => exact Nat.zero_le _
  | [a], _, _ => exact le_rfl
  | a :: b :: rest, hxs, hkey =>
    have hlt : key a < key b := (List.pairwise_cons.mp hxs).1 b List.mem_cons_self
    rw [hkey a List.mem_cons_self, hkey b (by simp)] at hlt
    exact absurd hlt (lt_irrefl x)

end

section
variable {key passes} {limit : ℕ} {frontier : Frontier κ} {docs : List α} {a : α}

theorem mem_beyond : a ∈ beyond key passes frontier docs ↔
    a ∈ docs ∧ passes a = true ∧ frontier < frontierAt (key a) := by
  rw [beyond, mem_listed, Bool.and_eq_true, decide_eq_true_eq]

theorem beyond_bot (docs : List α) : beyond key passes ⊥ docs = listed key passes docs := by
  simp [beyond, frontierAt]

theorem beyond_top (docs : List α) : beyond key passes ⊤ docs = [] := by
  refine List.eq_nil_iff_forall_not_mem.mpr fun a ha => ?_
  exact not_top_lt (mem_beyond.mp ha).2.2

/-- A page that is not the last one ends with its last document. -/
theorem fetch_next (h : limit < (beyond key passes frontier docs).length) (hlimit : 0 < limit) :
    ∃ page last rest next, beyond key passes frontier docs = page ++ [last] ++ next :: rest ∧
      (page ++ [last]).length = limit ∧
      fetch key passes limit frontier docs = (page ++ [last], frontierAt (key last)) := by
  obtain ⟨rows, hrows⟩ : ∃ rows, rows = beyond key passes frontier docs := ⟨_, rfl⟩
  have hlen : (rows.take limit).length = limit := by
    rw [List.length_take, hrows]
    omega
  obtain ⟨page, last, hpage⟩ : ∃ page last, rows.take limit = page ++ [last] := by
    refine (List.eq_nil_or_concat' _).resolve_left fun hnil => ?_
    rw [hnil, List.length_nil] at hlen
    omega
  obtain ⟨next, rest, hrest⟩ : ∃ next rest, rows.drop limit = next :: rest := by
    refine List.exists_cons_of_length_pos ?_
    rw [List.length_drop, hrows]
    omega
  refine ⟨page, last, rest, next, ?_, hpage ▸ hlen, ?_⟩
  · rw [← hrows, ← hpage, ← hrest, List.take_append_drop]
  · have htake : (rows.take (limit + 1)).take limit = page ++ [last] := by
      rw [List.take_take, Nat.min_eq_left (Nat.le_succ _), hpage]
    have hmore : limit < (rows.take (limit + 1)).length := by
      rw [List.length_take, hrows]
      omega
    simp only [fetch, ← hrows, htake, if_pos hmore, List.getLast?_concat, Option.elim_some]

theorem fetch_last (h : (beyond key passes frontier docs).length ≤ limit) :
    fetch key passes limit frontier docs = (beyond key passes frontier docs, ⊤) := by
  have htake : (beyond key passes frontier docs).take (limit + 1) = beyond key passes frontier docs :=
    List.take_of_length_le (h.trans (Nat.le_succ _))
  simp only [fetch, htake, List.take_of_length_le h, if_neg (Nat.not_lt.mpr h)]

theorem fetch_top : fetch key passes limit ⊤ docs = ([], ⊤) := by
  rw [fetch_last (by simp [beyond_top]), beyond_top]

/-- What a fetch lists: in strict order, and exactly the documents that pass
between the two frontiers. -/
structure Covers (key : α → κ) (passes : α → Bool) (frontier next : Frontier κ) (docs page : List α) :
    Prop where
  forward : frontier ≤ next
  increasing : page.Pairwise fun a b => key a < key b
  mem_iff : ∀ a, a ∈ page ↔
    a ∈ docs ∧ passes a = true ∧ frontier < frontierAt (key a) ∧ frontierAt (key a) ≤ next

theorem fetch_covers (hkeys : (docs.map key).Nodup) (hlimit : 0 < limit) :
    Covers key passes frontier (fetch key passes limit frontier docs).2 docs
      (fetch key passes limit frontier docs).1 := by
  have hsorted : (beyond key passes frontier docs).Pairwise fun a b => key a < key b := listed_sorted hkeys
  rcases Nat.lt_or_ge limit (beyond key passes frontier docs).length with hmore | hall
  · obtain ⟨page, last, rest, next, hbeyond, -, hfetch⟩ := fetch_next hmore hlimit
    rw [hbeyond, List.pairwise_append] at hsorted
    obtain ⟨hpage, -, hcross⟩ := hsorted
    have hlast : ∀ a ∈ page, key a < key last := fun a ha =>
      (List.pairwise_append.mp hpage).2.2 a ha last List.mem_cons_self
    have hmem : last ∈ beyond key passes frontier docs := by simp [hbeyond]
    rw [hfetch]
    refine ⟨(mem_beyond.mp hmem).2.2.le, hpage, fun a => ⟨fun ha => ?_, ?_⟩⟩
    · have hb : a ∈ beyond key passes frontier docs := by
        rw [hbeyond]
        exact List.mem_append_left _ ha
      refine ⟨(mem_beyond.mp hb).1, (mem_beyond.mp hb).2.1, (mem_beyond.mp hb).2.2, ?_⟩
      rcases List.mem_append.mp ha with ha | ha
      · exact frontierAt_le.mpr (hlast a ha).le
      · rw [List.mem_singleton.mp ha]
    · rintro ⟨hdocs, hpasses, hlt, hle⟩
      have hb := mem_beyond.mpr ⟨hdocs, hpasses, hlt⟩
      rw [hbeyond] at hb
      refine (List.mem_append.mp hb).resolve_right fun hafter => ?_
      exact absurd (frontierAt_le.mp hle) (not_le.mpr (hcross last (by simp) a hafter))
  · rw [fetch_last hall]
    refine ⟨le_top, hsorted, fun a => ?_⟩
    rw [mem_beyond]
    simp

end

section
variable {key passes} {limit : ℕ} {docs : ℕ → List α}

/-- What a traversal has listed after some fetches. -/
structure Progress (key : α → κ) (passes : α → Bool) (docs : ℕ → List α) (fetches : ℕ)
    (state : List α × Frontier κ) : Prop where
  increasing : state.1.Pairwise fun a b => key a < key b
  listed : ∀ a ∈ state.1, frontierAt (key a) ≤ state.2
  origin : ∀ a ∈ state.1, ∃ j < fetches, a ∈ docs j ∧ passes a = true
  complete : ∀ x, (∀ j < fetches, ∃ a ∈ docs j, passes a = true ∧ key a = x) →
    frontierAt x ≤ state.2 → ∃ a ∈ state.1, key a = x

theorem progress_zero : Progress key passes docs 0 ([], ⊥) where
  increasing := List.Pairwise.nil
  listed _ ha := (List.not_mem_nil ha).elim
  origin _ ha := (List.not_mem_nil ha).elim
  complete x _ hle := absurd hle (by simp [frontierAt])

/-- A fetch carries a traversal on. -/
theorem Progress.step {fetches : ℕ} {state : List α × Frontier κ} {page : List α} {next : Frontier κ}
    (h : Progress key passes docs fetches state) (hc : Covers key passes state.2 next (docs fetches) page) :
    Progress key passes docs (fetches + 1) (state.1 ++ page, next) where
  increasing := by
    refine List.pairwise_append.mpr ⟨h.increasing, hc.increasing, fun a ha b hb => ?_⟩
    exact frontierAt_lt.mp ((h.listed a ha).trans_lt ((hc.mem_iff b).mp hb).2.2.1)
  listed a ha := by
    rcases List.mem_append.mp ha with ha | ha
    · exact (h.listed a ha).trans hc.forward
    · exact ((hc.mem_iff a).mp ha).2.2.2
  origin a ha := by
    rcases List.mem_append.mp ha with ha | ha
    · obtain ⟨j, hj, hfrom⟩ := h.origin a ha
      exact ⟨j, hj.trans (Nat.lt_succ_self _), hfrom⟩
    · obtain ⟨hdocs, hpasses, -⟩ := (hc.mem_iff a).mp ha
      exact ⟨fetches, Nat.lt_succ_self _, hdocs, hpasses⟩
  complete x hx hle := by
    rcases le_or_gt (frontierAt x) state.2 with hbefore | hafter
    · obtain ⟨a, ha, hkey⟩ := h.complete x (fun j hj => hx j (hj.trans (Nat.lt_succ_self _))) hbefore
      exact ⟨a, List.mem_append_left _ ha, hkey⟩
    · obtain ⟨a, hdocs, hpasses, hkey⟩ := hx fetches (Nat.lt_succ_self _)
      subst hkey
      exact ⟨a, List.mem_append_right _ ((hc.mem_iff a).mpr ⟨hdocs, hpasses, hafter, hle⟩), rfl⟩

theorem walk_progress (hkeys : ∀ j, ((docs j).map key).Nodup) (hlimit : 0 < limit) (k : ℕ) :
    Progress key passes docs k (walk key passes limit docs k) := by
  induction k with
  | zero => exact progress_zero
  | succ k ih => exact ih.step (fetch_covers (hkeys k) hlimit)

end

section
variable {key passes} {limit : ℕ} {docs : List α}

/-- What is beyond a listed document is what is listed after it. -/
theorem beyond_frontierAt (hkeys : (docs.map key).Nodup) {front rest : List α} {last : α}
    (h : listed key passes docs = front ++ [last] ++ rest) :
    beyond key passes (frontierAt (key last)) docs = rest := by
  have hsorted : (listed key passes docs).Pairwise fun a b => key a < key b := listed_sorted hkeys
  rw [h, List.pairwise_append] at hsorted
  obtain ⟨hfront, hrest, hcross⟩ := hsorted
  have hbeyond : (beyond key passes (frontierAt (key last)) docs).Pairwise fun a b => key a < key b :=
    listed_sorted hkeys
  refine eq_of_sorted hbeyond hrest fun a => ?_
  have hmem : a ∈ docs ∧ passes a = true ↔ a ∈ front ++ [last] ++ rest := by
    rw [← h]
    exact mem_listed.symm
  rw [mem_beyond, frontierAt_lt, ← and_assoc, hmem, List.mem_append]
  constructor
  · rintro ⟨hbefore | hafter, hlt⟩
    · have hle : key a ≤ key last := by
        rcases List.mem_append.mp hbefore with hbefore | hbefore
        · exact ((List.pairwise_append.mp hfront).2.2 a hbefore last List.mem_cons_self).le
        · rw [List.mem_singleton.mp hbefore]
      exact absurd hlt (not_lt.mpr hle)
    · exact hafter
  · intro ha
    exact ⟨Or.inr ha, hcross last (by simp) a ha⟩

/-- Where a traversal of an unchanged collection stands: at its end, or at the
last document of whole pages. -/
theorem walk_const (hkeys : (docs.map key).Nodup) (hlimit : 0 < limit) (k : ℕ) :
    ∃ items rest frontier, walk key passes limit (fun _ => docs) k = (items, frontier) ∧
      listed key passes docs = items ++ rest ∧ items.length ≤ k * limit ∧
      (rest = [] ∧ frontier = ⊤ ∨
        items.length = k * limit ∧ beyond key passes frontier docs = rest ∧
          (0 < k → ∃ front last, items = front ++ [last] ∧ frontier = frontierAt (key last))) := by
  induction k with
  | zero =>
    refine ⟨[], listed key passes docs, ⊥, rfl, rfl, Nat.zero_le _, Or.inr ⟨?_, beyond_bot docs, ?_⟩⟩
    · rw [Nat.zero_mul, List.length_nil]
    · exact fun h => absurd h (lt_irrefl 0)
  | succ k ih =>
    obtain ⟨items, rest, frontier, hwalk, hlisted, hlen, hstands⟩ := ih
    have hstep : walk key passes limit (fun _ => docs) (k + 1) =
        (items ++ (fetch key passes limit frontier docs).1, (fetch key passes limit frontier docs).2) := by
      rw [walk, hwalk]
    rw [hstep]
    have hle : k * limit ≤ (k + 1) * limit := Nat.mul_le_mul_right _ (Nat.le_succ k)
    rcases hstands with ⟨rfl, rfl⟩ | ⟨hwhole, hbeyond, -⟩
    · rw [fetch_top]
      exact ⟨items ++ [], [], ⊤, rfl, by simpa using hlisted, by simpa using hlen.trans hle,
          Or.inl ⟨rfl, rfl⟩⟩
    · rcases Nat.lt_or_ge limit (beyond key passes frontier docs).length with hmore | hall
      · obtain ⟨page, last, after, next, hsplit, hpage, hfetch⟩ := fetch_next hmore hlimit
        have hitems : (items ++ (page ++ [last])).length = (k + 1) * limit := by
          rw [List.length_append, hpage, hwhole, Nat.add_mul, Nat.one_mul]
        have hrows : listed key passes docs = items ++ (page ++ [last]) ++ next :: after := by
          rw [hlisted, ← hbeyond, hsplit, List.append_assoc items]
        refine ⟨_, next :: after, _, by rw [hfetch], hrows, hitems.le, Or.inr ⟨hitems, ?_, fun _ => ?_⟩⟩
        · rw [← List.append_assoc items] at hrows
          exact beyond_frontierAt hkeys hrows
        · exact ⟨items ++ page, last, by rw [List.append_assoc], rfl⟩
      · rw [fetch_last hall, hbeyond]
        refine ⟨_, [], ⊤, rfl, by rw [hlisted, List.append_nil], ?_, Or.inl ⟨rfl, rfl⟩⟩
        rw [hbeyond] at hall
        rw [List.length_append, Nat.add_mul, Nat.one_mul]
        exact Nat.add_le_add hlen hall

/-- A traversal of an unchanged collection ends with all that is listed. -/
theorem walk_ends (hkeys : (docs.map key).Nodup) (hlimit : 0 < limit) :
    walk key passes limit (fun _ => docs) ((listed key passes docs).length + 1) =
      (listed key passes docs, ⊤) := by
  obtain ⟨items, rest, frontier, hwalk, hlisted, -, hstands⟩ :=
    walk_const hkeys hlimit ((listed key passes docs).length + 1)
  rw [hwalk]
  rcases hstands with ⟨rfl, rfl⟩ | ⟨hwhole, -, -⟩
  · rw [hlisted, List.append_nil]
  · have hle : items.length ≤ (listed key passes docs).length := by
      rw [hlisted, List.length_append]
      exact Nat.le_add_right _ _
    have hmul : (listed key passes docs).length + 1 ≤ ((listed key passes docs).length + 1) * limit :=
      Nat.le_mul_of_pos_right _ hlimit
    omega

/-- A traversal by single documents comes to every one that is not the last. -/
theorem walk_single (hkeys : (docs.map key).Nodup) {front rest : List α} {last next : α}
    (h : listed key passes docs = front ++ [last] ++ next :: rest) :
    walk key passes 1 (fun _ => docs) (front.length + 1) = (front ++ [last], frontierAt (key last)) := by
  obtain ⟨items, after, frontier, hwalk, hlisted, hlen, hstands⟩ :=
    walk_const hkeys Nat.one_pos (front.length + 1)
  rw [Nat.mul_one] at hlen hstands
  rcases hstands with ⟨rfl, -⟩ | ⟨hwhole, -, hfrontier⟩
  · rw [h, List.append_nil] at hlisted
    rw [← hlisted] at hlen
    simp at hlen
  · have hitems : items = front ++ [last] := by
      have hboth : front ++ [last] ++ next :: rest = items ++ after := h.symm.trans hlisted
      exact (List.append_inj_left hboth (by simp [hwhole])).symm
    obtain ⟨front', last', hsame, hat⟩ := hfrontier (Nat.succ_pos _)
    have hlast : last' = last := by
      have hconcat : front' ++ [last'] = front ++ [last] := hsame.symm.trans hitems
      exact List.singleton_inj.mp (List.append_inj_right' hconcat rfl)
    rw [hwalk, hitems, hat, hlast]

end

end CkbDex.Keyset
