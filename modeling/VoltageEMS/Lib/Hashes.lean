import VoltageEMS.Lib.Basic

/-!
# Hashes of fields

A finite map from keys to hashes, which are finite maps from fields to values.

* `putAll` — overwrite fields of a key (`get_putAll`).
* `fill` — put a batch back without overwriting: what is there wins (`get_fill`).
* `keys_length_insert`, `keys_length_fill` — how many keys there are afterwards.
-/

namespace VoltageEMS.Lib

open List Option AList

variable {κ φ β : Type} [DecidableEq κ] [DecidableEq φ]

/-- A finite map. -/
abbrev Hash (φ β : Type) := AList fun _ : φ => β

namespace Hash

variable {γ : Type} (m b : Hash φ β) (fields : List (φ × β)) (f : φ) (v : β) (x : φ)

theorem lookup_insert_eq : (m.insert f v).lookup x = if x = f then some v else m.lookup x := by
  by_cases hx : x = f
  · rw [if_pos hx, hx, lookup_insert]
  · rw [if_neg hx, lookup_insert_ne hx]

theorem entries_perm_erase {m : Hash φ β} {f : φ} {v : β} (h : m.lookup f = some v) :
    m.entries.Perm (⟨f, v⟩ :: (m.erase f).entries) := by
  have hkey : f ∈ m.entries.keys := lookup_isSome.mp (by rw [h]; rfl)
  obtain ⟨w, before, after, -, hentries, herased⟩ := exists_of_kerase hkey
  have hmem : (⟨f, w⟩ : Sigma fun _ : φ => β) ∈ m.entries := by
    rw [hentries]
    exact mem_append_right _ (mem_cons_self ..)
  have hw : w = v := some.inj ((mem_lookup_iff.mpr hmem).symm.trans h)
  change m.entries.Perm (⟨f, v⟩ :: kerase f m.entries)
  rw [herased, hentries, hw]
  exact perm_middle

/-- `entry(f).or_insert(v)`. -/
def orInsert (f : φ) (v : β) : Hash φ β := if f ∈ m then m else m.insert f v

theorem lookup_orInsert :
    (m.orInsert f v).lookup x = (m.lookup x).or (if x = f then some v else none) := by
  unfold orInsert
  by_cases hf : f ∈ m
  · rw [if_pos hf]
    by_cases hx : x = f
    · obtain ⟨w, hw⟩ := isSome_iff_exists.mp (lookup_isSome.mpr (hx ▸ hf))
      rw [hw, some_or]
    · rw [if_neg hx, or_none]
  rw [if_neg hf, lookup_insert_eq]
  by_cases hx : x = f
  · rw [if_pos hx, if_pos hx, hx, lookup_eq_none.mpr hf, none_or]
  · rw [if_neg hx, if_neg hx, or_none]

/-- `or_insert` for each entry of `b`. -/
def orInsertAll (b : Hash φ β) : Hash φ β := b.foldl (fun m f v => m.orInsert f v) m

theorem lookup_orInsertAll : (m.orInsertAll b).lookup f = (m.lookup f).or (b.lookup f) := by
  obtain ⟨entries, hentries⟩ := b
  change AList.lookup f (entries.foldl (fun m e => orInsert m e.1 e.2) m) =
    (m.lookup f).or (entries.dlookup f)
  clear hentries
  induction entries generalizing m with
  | nil => rw [foldl_nil, dlookup_nil, or_none]
  | cons e entries ih =>
    obtain ⟨f', v⟩ := e
    rw [foldl_cons, ih, lookup_orInsert, Option.or_assoc]
    by_cases hf : f = f'
    · subst hf
      rw [if_pos rfl, dlookup_cons_eq, some_or]
    · rw [if_neg hf, dlookup_cons_ne entries ⟨f', v⟩ hf, none_or]

/-- `insert` for each field. -/
def insertFields (fields : List (φ × β)) : Hash φ β :=
  fields.foldl (fun m fv => m.insert fv.1 fv.2) m

theorem insertFields_append (fields' : List (φ × β)) :
    (m.insertFields fields).insertFields fields' = m.insertFields (fields ++ fields') :=
  foldl_append.symm

theorem lookup_insertFields :
    (m.insertFields fields).lookup f = insertAll (fun x => m.lookup x) fields f := by
  induction fields generalizing m with
  | nil => rfl
  | cons fv fields ih =>
    have hone : (fun x => (m.insert fv.1 fv.2).lookup x) =
        Function.update (fun x => m.lookup x) fv.1 (some fv.2) := by
      funext x
      rw [lookup_insert_eq, Function.update_apply]
    rw [insertAll_cons, ← hone]
    exact ih (m.insert fv.1 fv.2)

theorem lookup_insertFields_or :
    (m.insertFields fields).lookup f = (insertAll (fun _ => none) fields f).or (m.lookup f) := by
  rw [lookup_insertFields]
  exact insertAll_or (none_or (o := m.lookup f)).symm fields

/-- The values mapped. -/
def mapVals {γ : Type} (f : φ → β → γ) (m : Hash φ β) : Hash φ γ :=
  ⟨m.entries.map fun e => ⟨e.1, f e.1 e.2⟩, by
    simpa [List.NodupKeys, List.keys, List.map_map, Function.comp_def] using m.nodupKeys⟩

theorem lookup_mapVals (f : φ → β → γ) (m : Hash φ β) (x : φ) :
    (m.mapVals f).lookup x = (m.lookup x).map (f x) := by
  obtain ⟨entries, hentries⟩ := m
  change (entries.map fun e => (⟨e.1, f e.1 e.2⟩ : Sigma fun _ : φ => γ)).dlookup x =
    (entries.dlookup x).map (f x)
  clear hentries
  induction entries with
  | nil => rfl
  | cons e entries ih =>
    obtain ⟨field, v⟩ := e
    rw [map_cons]
    by_cases hx : x = field
    · subst hx
      rw [dlookup_cons_eq, dlookup_cons_eq]
      rfl
    rw [dlookup_cons_ne entries (⟨field, v⟩ : Sigma fun _ : φ => β) hx, ← ih]
    exact dlookup_cons_ne _ (⟨field, f field v⟩ : Sigma fun _ : φ => γ) hx

end Hash

/-- A hash for each key. -/
abbrev Hashes (κ φ β : Type) := AList fun _ : κ => Hash φ β

namespace Hashes

/-- The value of a field of a key. -/
def get (h : Hashes κ φ β) (kf : κ × φ) : Option β :=
  (h.lookup kf.1).bind fun m => m.lookup kf.2

/-- `entry(k).or_default()`. -/
def fields (h : Hashes κ φ β) (k : κ) : Hash φ β := (h.lookup k).getD ∅

theorem lookup_fields (h : Hashes κ φ β) (k : κ) (f : φ) : (h.fields k).lookup f = h.get (k, f) := by
  unfold fields get
  cases h.lookup k <;> rfl

@[simp] theorem get_empty (kf : κ × φ) : get (∅ : Hashes κ φ β) kf = none := rfl

theorem get_insert (h : Hashes κ φ β) (k : κ) (m : Hash φ β) (kf : κ × φ) :
    get (h.insert k m) kf = if kf.1 = k then m.lookup kf.2 else h.get kf := by
  unfold get
  rw [Hash.lookup_insert_eq]
  split <;> rfl

variable {h : Hashes κ φ β}

theorem get_eq_none_of_notMem {kf : κ × φ} (hk : kf.1 ∉ h) : h.get kf = none := by
  unfold get
  rw [lookup_eq_none.mpr hk]
  rfl

/-! ## Overwriting -/

/-- Overwrite fields of a key. -/
def putAll (h : Hashes κ φ β) (k : κ) (fvs : List (φ × β)) : Hashes κ φ β :=
  h.insert k ((h.fields k).insertFields fvs)

theorem get_putAll (h : Hashes κ φ β) (k : κ) (fvs : List (φ × β)) :
    (h.putAll k fvs).get = insertAll h.get (fvs.map fun fv => ((k, fv.1), fv.2)) := by
  funext ⟨k', f⟩
  rw [putAll, get_insert, insertAll_eq_getLast, List.filter_map, getLast?_map]
  by_cases hk : k' = k
  · subst hk
    rw [if_pos rfl, Hash.lookup_insertFields, insertAll_eq_getLast, lookup_fields]
    simp [Function.comp_def]
  rw [if_neg hk]
  simp [Function.comp_def, Ne.symm hk]

/-! ## Putting a batch back -/

/-- Put a batch back without overwriting. -/
def fill (h b : Hashes κ φ β) : Hashes κ φ β :=
  b.foldl (fun h k m => h.insert k ((h.fields k).orInsertAll m)) h

theorem get_fill (h b : Hashes κ φ β) (kf : κ × φ) :
    (h.fill b).get kf = (h.get kf).or (b.get kf) := by
  obtain ⟨entries, hentries⟩ := b
  change get (entries.foldl (fun h e => h.insert e.1 ((h.fields e.1).orInsertAll e.2)) h) kf =
    (h.get kf).or ((entries.dlookup kf.1).bind fun m => m.lookup kf.2)
  induction entries generalizing h with
  | nil => rw [foldl_nil, dlookup_nil, bind_none, or_none]
  | cons e entries ih =>
    obtain ⟨k, m⟩ := e
    obtain ⟨hnew, hentries⟩ := List.nodupKeys_cons.mp hentries
    rw [foldl_cons, ih _ hentries, get_insert]
    by_cases hk : kf.1 = k
    · -- the key comes once in the batch
      subst hk
      rw [if_pos rfl, Hash.lookup_orInsertAll, lookup_fields, dlookup_cons_eq,
        List.dlookup_eq_none.mpr hnew, bind_none, or_none, bind_some]
    · rw [if_neg hk, dlookup_cons_ne entries ⟨k, m⟩ hk]

theorem mem_fill (h b : Hashes κ φ β) (k : κ) : k ∈ h.fill b ↔ k ∈ h ∨ k ∈ b := by
  obtain ⟨entries, hentries⟩ := b
  change k ∈ entries.foldl (fun h e => h.insert e.1 ((h.fields e.1).orInsertAll e.2)) h ↔
    k ∈ h ∨ k ∈ entries.keys
  clear hentries
  induction entries generalizing h with
  | nil => simp
  | cons e entries ih =>
    rw [foldl_cons, ih, mem_insert, keys_cons, mem_cons]
    tauto

/-! ## Taking out keys -/

/-- The hashes of some of the keys. -/
def select (h : Hashes κ φ β) (p : κ → Bool) : Hashes κ φ β where
  entries := h.entries.filter fun e => p e.1
  nodupKeys := h.nodupKeys.sublist filter_sublist

omit [DecidableEq φ] in
theorem lookup_select (h : Hashes κ φ β) (p : κ → Bool) (k : κ) :
    (h.select p).lookup k = if p k then h.lookup k else none := by
  apply Option.ext
  intro m
  have hmem : m ∈ (h.select p).lookup k ↔ m ∈ h.lookup k ∧ p k := by
    rw [mem_lookup_iff, mem_lookup_iff]
    exact mem_filter
  by_cases hp : p k
  · rw [if_pos hp]
    exact hmem.trans (and_iff_left hp)
  rw [if_neg hp]
  exact iff_of_false (fun h => hp (hmem.mp h).2) (by simp)

omit [DecidableEq φ] in
theorem mem_select {p : κ → Bool} {k : κ} : k ∈ h.select p ↔ k ∈ h ∧ p k := by
  rw [← lookup_isSome, ← lookup_isSome, lookup_select]
  by_cases hp : p k
  · rw [if_pos hp, and_iff_left hp]
  rw [if_neg hp]
  exact iff_of_false (by simp) fun h => hp h.2

theorem get_select (h : Hashes κ φ β) (p : κ → Bool) (kf : κ × φ) :
    (h.select p).get kf = if p kf.1 then h.get kf else none := by
  unfold get
  rw [lookup_select]
  split <;> rfl

theorem get_union (h b : Hashes κ φ β) (kf : κ × φ) :
    get (h ∪ b) kf = if kf.1 ∈ h then h.get kf else b.get kf := by
  unfold get
  split
  · rename_i hk
    rw [lookup_union_left hk]
  rename_i hk
  rw [lookup_union_right hk]

/-! ## Counting keys -/

omit [DecidableEq φ] in
theorem keys_length_insert (h : Hashes κ φ β) (k : κ) (m : Hash φ β) :
    (h.insert k m).keys.length = if k ∈ h then h.keys.length else h.keys.length + 1 := by
  rw [keys_insert, length_cons]
  split
  · rename_i hk
    have hpos := length_pos_of_mem (AList.mem_keys.mp hk)
    rw [length_erase_of_mem (AList.mem_keys.mp hk)]
    omega
  rename_i hk
  rw [erase_of_not_mem fun hmem => hk (AList.mem_keys.mpr hmem)]

theorem keys_length_fill (h b : Hashes κ φ β) :
    (h.fill b).keys.length = (h.keys ∪ b.keys).length := by
  have hperm : (h.fill b).keys.Perm (h.keys ∪ b.keys) := by
    rw [perm_ext_iff_of_nodup (keys_nodup _) (List.Nodup.union _ (keys_nodup _))]
    intro k
    rw [mem_union_iff, ← AList.mem_keys, ← AList.mem_keys, ← AList.mem_keys, mem_fill]
  exact hperm.length_eq

omit [DecidableEq κ] [DecidableEq φ] in
theorem keys_length_select (h : Hashes κ φ β) (p : κ → Bool) :
    (h.select p).keys.length ≤ h.keys.length :=
  (filter_sublist.map _).length_le

end Hashes

end VoltageEMS.Lib
