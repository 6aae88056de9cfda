import Mathlib.Data.List.Nodup

/-!
# Collections with a unique key

A collection is a list of documents no two of which share a key. Lookups,
upserts and updates are described by what `find?` sees afterwards.
-/
namespace CkbDex.Collections

/-- Documents in insertion order, with a unique index on `key`. -/
structure Collection (κ α : Type) (key : α → κ) where
  docs : List α
  nodup : (docs.map key).Nodup

variable {κ α : Type} {key : α → κ}

namespace Collection

def empty : Collection κ α key := ⟨[], List.nodup_nil⟩

def filter (c : Collection κ α key) (p : α → Bool) : List α := c.docs.filter p

/-- Updates documents in place, without touching their keys. -/
def map (c : Collection κ α key) (f : α → α) (hf : ∀ a, key (f a) = key a) :
    Collection κ α key where
  docs := c.docs.map f
  nodup := by
    have hkeys : ∀ a ∈ c.docs, (key ∘ f) a = key a := fun a _ => hf a
    rw [List.map_map, List.map_congr_left hkeys]
    exact c.nodup

def deleteWhere (c : Collection κ α key) (p : α → Bool) : Collection κ α key where
  docs := c.docs.filter fun a => !p a
  nodup := c.nodup.sublist (List.filter_sublist.map key)

theorem mem_filter {c : Collection κ α key} {p : α → Bool} {a : α} :
    a ∈ c.filter p ↔ a ∈ c.docs ∧ p a = true :=
  List.mem_filter

@[simp] theorem mem_docs_map {c : Collection κ α key} {f : α → α}
    {hf : ∀ a, key (f a) = key a} {b : α} : b ∈ (c.map f hf).docs ↔ ∃ a ∈ c.docs, f a = b :=
  List.mem_map

@[simp] theorem mem_docs_deleteWhere {c : Collection κ α key} {p : α → Bool} {a : α} :
    a ∈ (c.deleteWhere p).docs ↔ a ∈ c.docs ∧ p a = false := by
  simp [deleteWhere]

variable [DecidableEq κ]

def find? (c : Collection κ α key) (k : κ) : Option α := c.docs.find? fun a => key a = k

theorem find?_eq_some {c : Collection κ α key} {k : κ} {a : α} :
    c.find? k = some a ↔ a ∈ c.docs ∧ key a = k := by
  constructor
  · intro h
    exact ⟨List.mem_of_find?_eq_some h, by simpa using List.find?_some h⟩
  · rintro ⟨hmem, rfl⟩
    obtain ⟨b, hb⟩ : ∃ b, c.find? (key a) = some b := by
      rw [← Option.isSome_iff_exists, find?, List.find?_isSome]
      exact ⟨a, hmem, by simp⟩
    have hkey : key b = key a := by simpa using List.find?_some hb
    rw [hb, List.inj_on_of_nodup_map c.nodup (List.mem_of_find?_eq_some hb) hmem hkey]

theorem find?_eq_none {c : Collection κ α key} {k : κ} :
    c.find? k = none ↔ ∀ a ∈ c.docs, key a ≠ k := by
  simp [find?]

theorem key_of_find? {c : Collection κ α key} {k : κ} {a : α} (h : c.find? k = some a) :
    key a = k :=
  (find?_eq_some.mp h).2

theorem find?_of_mem {c : Collection κ α key} {a : α} (h : a ∈ c.docs) :
    c.find? (key a) = some a :=
  find?_eq_some.mpr ⟨h, rfl⟩

@[simp] theorem find?_empty (k : κ) : (empty : Collection κ α key).find? k = none := rfl

theorem find?_map {c : Collection κ α key} {f : α → α} {hf : ∀ a, key (f a) = key a} {k : κ} :
    (c.map f hf).find? k = (c.find? k).map f := by
  cases h : c.find? k with
  | none =>
      rw [find?_eq_none] at h
      rw [Option.map_none, find?_eq_none]
      intro b hb
      obtain ⟨a, ha, rfl⟩ := mem_docs_map.mp hb
      rw [hf]
      exact h a ha
  | some a =>
      obtain ⟨hmem, hk⟩ := find?_eq_some.mp h
      rw [Option.map_some, find?_eq_some]
      exact ⟨mem_docs_map.mpr ⟨a, hmem, rfl⟩, (hf a).trans hk⟩

/-- Looking a document up among those of a filter that lets it pass. -/
theorem find?_filter {c : Collection κ α key} {p : α → Bool} {k : κ} {a : α}
    (h : c.find? k = some a) (hp : p a = true) :
    (c.filter p).find? (fun b => key b = k) = some a := by
  obtain ⟨hmem, hk⟩ := find?_eq_some.mp h
  obtain ⟨b, hb⟩ : ∃ b, (c.filter p).find? (fun b => key b = k) = some b := by
    rw [← Option.isSome_iff_exists, List.find?_isSome]
    exact ⟨a, mem_filter.mpr ⟨hmem, hp⟩, by simpa using hk⟩
  have hkey : key b = key a := by
    rw [hk]
    simpa using List.find?_some hb
  rw [hb, List.inj_on_of_nodup_map c.nodup (mem_filter.mp (List.mem_of_find?_eq_some hb)).1 hmem hkey]

theorem find?_deleteWhere {c : Collection κ α key} {p : α → Bool} {k : κ} :
    (c.deleteWhere p).find? k = (c.find? k).filter fun a => !p a := by
  cases h : c.find? k with
  | none =>
      rw [find?_eq_none] at h
      rw [Option.filter_none, find?_eq_none]
      exact fun b hb => h b (mem_docs_deleteWhere.mp hb).1
  | some a =>
      obtain ⟨hmem, hk⟩ := find?_eq_some.mp h
      cases hp : p a with
      | false =>
          rw [Option.filter_some_pos (by simp [hp]), find?_eq_some]
          exact ⟨mem_docs_deleteWhere.mpr ⟨hmem, hp⟩, hk⟩
      | true =>
          rw [Option.filter_some_neg (by simp [hp]), find?_eq_none]
          intro b hb hbk
          obtain ⟨hb, hpb⟩ := mem_docs_deleteWhere.mp hb
          rw [List.inj_on_of_nodup_map c.nodup hb hmem (hbk.trans hk.symm), hp] at hpb
          cases hpb

/-- Replaces the document of the same key, or appends a new one. -/
def put (c : Collection κ α key) (a : α) : Collection κ α key :=
  if h : (c.find? (key a)).isSome then
    { docs := c.docs.map fun b => if key b = key a then a else b
      nodup := by
        have hkeys : ∀ b ∈ c.docs, (key ∘ fun b => if key b = key a then a else b) b = key b := by
          intro b _
          by_cases hb : key b = key a <;> simp [hb]
        rw [List.map_map, List.map_congr_left hkeys]
        exact c.nodup }
  else
    { docs := c.docs ++ [a]
      nodup := by
        have hnone : ∀ b ∈ c.docs, key b ≠ key a :=
          find?_eq_none.mp (Option.not_isSome_iff_eq_none.mp h)
        rw [List.map_append, List.map_singleton]
        refine c.nodup.append (List.nodup_singleton _) ?_
        intro k hk hka
        rw [List.mem_singleton] at hka
        obtain ⟨b, hb, rfl⟩ := List.mem_map.mp hk
        exact hnone b hb hka }

theorem mem_docs_put {c : Collection κ α key} {a b : α} :
    b ∈ (c.put a).docs ↔ b = a ∨ b ∈ c.docs ∧ key b ≠ key a := by
  unfold put
  split_ifs with h
  · obtain ⟨old, hold⟩ := Option.isSome_iff_exists.mp h
    obtain ⟨hmem, hkey⟩ := find?_eq_some.mp hold
    simp only [List.mem_map]
    constructor
    · rintro ⟨x, hx, rfl⟩
      by_cases hxa : key x = key a
      · exact Or.inl (if_pos hxa)
      · exact Or.inr (by rw [if_neg hxa]; exact ⟨hx, hxa⟩)
    · rintro (rfl | ⟨hb, hne⟩)
      · exact ⟨old, hmem, if_pos hkey⟩
      · exact ⟨b, hb, if_neg hne⟩
  · have hnone := find?_eq_none.mp (Option.not_isSome_iff_eq_none.mp h)
    simp only [List.mem_append, List.mem_singleton]
    constructor
    · rintro (hb | rfl)
      · exact Or.inr ⟨hb, hnone b hb⟩
      · exact Or.inl rfl
    · rintro (rfl | ⟨hb, -⟩)
      · exact Or.inr rfl
      · exact Or.inl hb

theorem find?_put {c : Collection κ α key} {a : α} {k : κ} :
    (c.put a).find? k = if key a = k then some a else c.find? k := by
  by_cases hk : key a = k
  · rw [if_pos hk, find?_eq_some]
    exact ⟨mem_docs_put.mpr (Or.inl rfl), hk⟩
  · rw [if_neg hk]
    cases h : c.find? k with
    | none =>
        rw [find?_eq_none] at h ⊢
        intro b hb
        rcases mem_docs_put.mp hb with rfl | ⟨hb, -⟩
        · exact hk
        · exact h b hb
    | some b =>
        obtain ⟨hb, hkey⟩ := find?_eq_some.mp h
        rw [find?_eq_some]
        exact ⟨mem_docs_put.mpr (Or.inr ⟨hb, fun e => hk (e ▸ hkey)⟩), hkey⟩

@[simp] theorem find?_put_self {c : Collection κ α key} {a : α} :
    (c.put a).find? (key a) = some a := by
  rw [find?_put, if_pos rfl]

theorem length_put {c : Collection κ α key} {a : α} : (c.put a).docs.length =
    if (c.find? (key a)).isSome then c.docs.length else c.docs.length + 1 := by
  unfold put
  split_ifs
  · simp
  · simp

/-- What a transaction leaves of a collection when it commits. It read a
snapshot and changed it, others may have committed since. A document that it
changed is one that nobody else changed. -/
def Merges (snapshot changed current after : Collection κ α key) : Prop :=
  ∀ k, changed.find? k = snapshot.find? k ∧ after.find? k = current.find? k ∨
    current.find? k = snapshot.find? k ∧ after.find? k = changed.find? k

section
variable {snapshot changed current after : Collection κ α key} {k : κ}

/-- Nobody else committed since the snapshot. -/
theorem merges_alone (snapshot changed : Collection κ α key) :
    Merges snapshot changed snapshot changed :=
  fun _ => Or.inr ⟨rfl, rfl⟩

theorem Merges.unwritten (h : Merges snapshot changed current after)
    (hk : changed.find? k = snapshot.find? k) : after.find? k = current.find? k := by
  rcases h k with ⟨-, hafter⟩ | ⟨hcurrent, hafter⟩
  · exact hafter
  · rw [hafter, hk, hcurrent]

theorem Merges.written (h : Merges snapshot changed current after)
    (hk : changed.find? k ≠ snapshot.find? k) :
    current.find? k = snapshot.find? k ∧ after.find? k = changed.find? k :=
  (h k).resolve_left fun hunwritten => hk hunwritten.1

end

end Collection

end CkbDex.Collections
