import ConnectionLeasing.Keyed

/-!
# Membership, keys and length of keyed lists

Reading by key and membership are the same thing while no key occurs twice, which `put` and `erase`
preserve.

* `get?_put`, `get?_erase`: reading after a write, at any key.
* `get?_eq_some_iff`: reading is membership.
* `length_put_le`, `length_put_of_some`, `length_erase_lt`: how writing changes the length.
* `get?_map`, `put_map`, `erase_map`: the same map under other keys and with other values.
-/

namespace ConnectionLeasing.Keyed

variable {κ α : Type}

/-- The keys of a map. -/
def keys (m : List (κ × α)) : List κ := m.map (·.1)

@[simp] theorem keys_nil : keys ([] : List (κ × α)) = [] := rfl

@[simp] theorem keys_cons (p : κ × α) (m : List (κ × α)) : keys (p :: m) = p.1 :: keys m := rfl

theorem mem_keys {m : List (κ × α)} {p : κ × α} (h : p ∈ m) : p.1 ∈ keys m :=
  List.mem_map.mpr ⟨p, h, rfl⟩

@[simp] theorem length_keys (m : List (κ × α)) : (keys m).length = m.length := List.length_map _

variable [DecidableEq κ]

theorem get?_put (m : List (κ × α)) (key other : κ) (value : α) :
    get? (put m key value) other = if key = other then some value else get? m other := by
  by_cases h : key = other
  · subst h; simp
  · rw [if_neg h, get?_put_of_ne m value h]

theorem get?_erase (m : List (κ × α)) (key other : κ) :
    get? (erase m key) other = if key = other then none else get? m other := by
  by_cases h : key = other
  · subst h; simp
  · rw [if_neg h, get?_erase_of_ne m h]

theorem mem_of_get? {m : List (κ × α)} {key : κ} {value : α} (h : get? m key = some value) :
    (key, value) ∈ m := by
  induction m with
  | nil => simp at h
  | cons p rest ih =>
    obtain ⟨k, v⟩ := p
    simp only [get?] at h
    split at h
    · rename_i hk
      simp only [Option.some.injEq] at h
      simp [hk, h]
    · exact List.mem_cons_of_mem _ (ih h)

theorem get?_eq_none_iff (m : List (κ × α)) (key : κ) : get? m key = none ↔ key ∉ keys m := by
  induction m with
  | nil => simp
  | cons p rest ih =>
    obtain ⟨k, v⟩ := p
    by_cases hk : k = key
    · simp [get?, hk]
    · have hk' : key ≠ k := fun h => hk h.symm
      simpa [get?, hk, hk'] using ih

theorem get?_eq_some_iff {m : List (κ × α)} (h : (keys m).Nodup) (key : κ) (value : α) :
    get? m key = some value ↔ (key, value) ∈ m := by
  refine ⟨mem_of_get?, ?_⟩
  induction m with
  | nil => simp
  | cons p rest ih =>
    obtain ⟨k, v⟩ := p
    rw [keys_cons, List.nodup_cons] at h
    intro hm
    rcases List.mem_cons.mp hm with hp | hm
    · simp only [Prod.mk.injEq] at hp
      simp [get?, hp.1, hp.2]
    · have hne : k ≠ key := by
        rintro rfl
        exact h.1 (mem_keys (p := (k, value)) hm)
      rw [get?, if_neg hne]
      exact ih h.2 hm

theorem keys_put_of_mem {m : List (κ × α)} {key : κ} (h : key ∈ keys m) (value : α) :
    keys (put m key value) = keys m := by
  induction m with
  | nil => simp at h
  | cons p rest ih =>
    obtain ⟨k, v⟩ := p
    by_cases hk : k = key
    · simp [put, hk]
    · have h' : key ∈ keys rest := by
        rcases List.mem_cons.mp h with h | h
        · exact absurd h.symm hk
        · exact h
      simp [put, hk, ih h']

theorem put_of_not_mem {m : List (κ × α)} {key : κ} (h : key ∉ keys m) (value : α) :
    put m key value = m ++ [(key, value)] := by
  induction m with
  | nil => rfl
  | cons p rest ih =>
    obtain ⟨k, v⟩ := p
    rw [keys_cons, List.mem_cons, not_or] at h
    have hk : k ≠ key := fun hk => h.1 hk.symm
    simp [put, hk, ih h.2]

theorem nodup_put {m : List (κ × α)} (h : (keys m).Nodup) (key : κ) (value : α) :
    (keys (put m key value)).Nodup := by
  by_cases hk : key ∈ keys m
  · rw [keys_put_of_mem hk]
    exact h
  · rw [put_of_not_mem hk, keys, List.map_append, List.nodup_append]
    refine ⟨h, by simp, ?_⟩
    rintro a ha b hb rfl
    rw [List.map_singleton, List.mem_singleton] at hb
    subst hb
    exact hk ha

theorem nodup_erase {m : List (κ × α)} (h : (keys m).Nodup) (key : κ) :
    (keys (erase m key)).Nodup :=
  List.Nodup.sublist (List.filter_sublist.map _) h

theorem mem_put {m : List (κ × α)} {key : κ} {value : α} {p : κ × α}
    (hp : p ∈ put m key value) : p = (key, value) ∨ p ∈ m := by
  induction m with
  | nil => simpa [put] using hp
  | cons q rest ih =>
    obtain ⟨k, v⟩ := q
    simp only [put] at hp
    split at hp
    · rcases List.mem_cons.mp hp with hp | hp
      · exact .inl hp
      · exact .inr (List.mem_cons_of_mem _ hp)
    · rcases List.mem_cons.mp hp with hp | hp
      · exact .inr (by simp [hp])
      · rcases ih hp with h | h
        · exact .inl h
        · exact .inr (List.mem_cons_of_mem _ h)

theorem length_put_of_some {m : List (κ × α)} {key : κ} {old : α} (h : get? m key = some old)
    (value : α) : (put m key value).length = m.length := by
  have hk : key ∈ keys m := mem_keys (mem_of_get? h)
  rw [← length_keys, keys_put_of_mem hk, length_keys]

theorem length_put_le (m : List (κ × α)) (key : κ) (value : α) :
    (put m key value).length ≤ m.length + 1 := by
  cases h : get? m key with
  | none => rw [put_of_not_mem ((get?_eq_none_iff m key).mp h), List.length_append]; simp
  | some old => rw [length_put_of_some h]; omega

theorem length_erase_le (m : List (κ × α)) (key : κ) : (erase m key).length ≤ m.length :=
  List.length_filter_le _ _

theorem length_erase_lt {m : List (κ × α)} {key : κ} {old : α} (h : get? m key = some old) :
    (erase m key).length < m.length := by
  refine List.length_filter_lt_length_iff_exists.mpr ⟨_, mem_of_get? h, ?_⟩
  simp

theorem get?_perm {m m' : List (κ × α)} (h : m'.Perm m) (hkeys : (keys m).Nodup) (key : κ) :
    get? m' key = get? m key := by
  have hkeys' : (keys m').Nodup := (h.map _).nodup_iff.mpr hkeys
  refine Option.ext fun value => ?_
  rw [get?_eq_some_iff hkeys', get?_eq_some_iff hkeys, h.mem_iff]

/-! ### Other keys and values -/

section map
variable {κ' α' : Type} [DecidableEq κ'] {f : κ → κ'} (hf : Function.Injective f) (g : α → α')
include hf

theorem get?_map (m : List (κ × α)) (key : κ) :
    get? (m.map (Prod.map f g)) (f key) = (get? m key).map g := by
  induction m with
  | nil => rfl
  | cons p m ih =>
    rw [List.map_cons, Prod.map, get?, get?, ih]
    by_cases h : p.1 = key
    · rw [if_pos h, if_pos (congrArg f h), Option.map_some]
    · rw [if_neg h, if_neg fun heq => h (hf heq)]

theorem put_map (m : List (κ × α)) (key : κ) (value : α) :
    put (m.map (Prod.map f g)) (f key) (g value) = (put m key value).map (Prod.map f g) := by
  induction m with
  | nil => rfl
  | cons p m ih =>
    rw [List.map_cons, Prod.map, put, put, ih]
    by_cases h : p.1 = key
    · rw [if_pos h, if_pos (congrArg f h)]
      rfl
    · rw [if_neg h, if_neg fun heq => h (hf heq)]
      rfl

theorem erase_map (m : List (κ × α)) (key : κ) :
    erase (m.map (Prod.map f g)) (f key) = (erase m key).map (Prod.map f g) := by
  rw [erase, erase, List.filter_map]
  refine congrArg (List.map _) (List.filter_congr fun p _ => ?_)
  exact decide_eq_decide.mpr (not_congr ⟨fun h => hf h, fun h => congrArg f h⟩)

end map

end ConnectionLeasing.Keyed
