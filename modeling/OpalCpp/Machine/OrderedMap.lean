import Mathlib.Algebra.GroupWithZero.Nat
import Mathlib.Data.List.Dedup
import Mathlib.Data.List.Induction
import Mathlib.Data.List.Sort
import Mathlib.Order.Basic

/-! # Maps in the order of their keys

A map is the list of its entries, with ascending keys. A key that is not there yet gets its entry in
its place; the value of a key that is there is found, or changed where it stands.
-/

namespace OpalCpp

namespace OrderedMap

variable {κ ν : Type*} [LinearOrder κ]

/-- The entry of a key, unless it has one. -/
def tryEmplace (key : κ) (value : ν) : List (κ × ν) → List (κ × ν)
  | [] => [(key, value)]
  | (other, old) :: entries =>
    if key < other then (key, value) :: (other, old) :: entries
    else if other < key then (other, old) :: tryEmplace key value entries
    else (other, old) :: entries

def find? (key : κ) : List (κ × ν) → Option ν
  | [] => none
  | (other, value) :: entries => if other = key then some value else find? key entries

/-- The value of a key is changed. -/
def modify (key : κ) (change : ν → ν) (entries : List (κ × ν)) : List (κ × ν) :=
  entries.map fun entry => if entry.1 = key then (entry.1, change entry.2) else entry

/-- The keys ascend. -/
def Ordered (entries : List (κ × ν)) : Prop := (entries.map Prod.fst).Pairwise (· < ·)

theorem ordered_nil : Ordered ([] : List (κ × ν)) := List.Pairwise.nil

theorem keys_modify (key : κ) (change : ν → ν) (entries : List (κ × ν)) :
    (modify key change entries).map Prod.fst = entries.map Prod.fst := by
  rw [modify, List.map_map]
  apply List.map_congr_left
  intro entry _
  rw [Function.comp_apply]
  split_ifs <;> rfl

theorem mem_keys_tryEmplace {key other : κ} {value : ν} {entries : List (κ × ν)} :
    other ∈ (tryEmplace key value entries).map Prod.fst ↔ other = key ∨ other ∈ entries.map Prod.fst := by
  induction entries with
  | nil => simp [tryEmplace]
  | cons entry entries ih =>
    rw [tryEmplace]
    split_ifs with before after
    · simp
    · rw [List.map_cons, List.mem_cons, ih, List.map_cons, List.mem_cons]
      tauto
    · have same : key = entry.1 := le_antisymm (not_lt.mp after) (not_lt.mp before)
      simp [same]

theorem mem_tryEmplace {key : κ} {value : ν} {entries : List (κ × ν)} {entry : κ × ν}
    (member : entry ∈ tryEmplace key value entries) : entry = (key, value) ∨ entry ∈ entries := by
  induction entries with
  | nil => exact .inl (List.mem_singleton.mp member)
  | cons first entries ih =>
    rw [tryEmplace] at member
    split_ifs at member with before after
    · exact List.mem_cons.mp member
    · obtain rfl | later := List.mem_cons.mp member
      · exact .inr List.mem_cons_self
      · exact (ih later).imp id (List.mem_cons_of_mem _)
    · exact .inr member

theorem Ordered.tryEmplace {entries : List (κ × ν)} (ordered : Ordered entries) (key : κ) (value : ν) :
    Ordered (tryEmplace key value entries) := by
  induction entries with
  | nil => exact List.pairwise_singleton _ _
  | cons entry entries ih =>
    obtain ⟨least, rest⟩ := List.pairwise_cons.mp ordered
    rw [OrderedMap.tryEmplace]
    split_ifs with before after
    · refine List.pairwise_cons.mpr ⟨?_, ordered⟩
      intro other member
      obtain same | later := List.mem_cons.mp member
      · exact same ▸ before
      · exact lt_trans before (least other later)
    · refine List.pairwise_cons.mpr ⟨?_, ih rest⟩
      intro other member
      obtain same | later := mem_keys_tryEmplace.mp member
      · exact same ▸ after
      · exact least other later
    · exact ordered

theorem Ordered.modify {entries : List (κ × ν)} (ordered : Ordered entries) (key : κ) (change : ν → ν) :
    Ordered (modify key change entries) := by
  rw [Ordered, keys_modify]
  exact ordered

theorem find?_isSome {key : κ} {entries : List (κ × ν)} : (find? key entries).isSome ↔ key ∈ entries.map Prod.fst := by
  induction entries with
  | nil => simp [find?]
  | cons entry entries ih =>
    rw [find?]
    split_ifs with same
    · simp [same]
    · rw [ih, List.map_cons, List.mem_cons]
      exact ⟨.inr, fun member => member.resolve_left (Ne.symm same)⟩

theorem find?_of_lt {key : κ} {entries : List (κ × ν)} (below : ∀ other ∈ entries.map Prod.fst, key < other) :
    find? key entries = none := by
  rw [← Option.not_isSome_iff_eq_none, find?_isSome]
  exact fun member => lt_irrefl key (below key member)

/-- No other key is touched. -/
theorem find?_tryEmplace_of_ne {key other : κ} (differs : other ≠ key) (value : ν) (entries : List (κ × ν)) :
    find? other (tryEmplace key value entries) = find? other entries := by
  induction entries with
  | nil => simp [tryEmplace, find?, Ne.symm differs]
  | cons entry entries ih =>
    rw [tryEmplace]
    split_ifs with before after
    · rw [find?, if_neg (Ne.symm differs)]
    · rw [find?, ih, ← find?]
    · rfl

/-- A key that is there keeps its value. -/
theorem find?_tryEmplace_self {entries : List (κ × ν)} (ordered : Ordered entries) (key : κ) (value : ν) :
    find? key (tryEmplace key value entries) = some ((find? key entries).getD value) := by
  induction entries with
  | nil => simp [tryEmplace, find?]
  | cons entry entries ih =>
    obtain ⟨least, rest⟩ := List.pairwise_cons.mp ordered
    rw [tryEmplace]
    split_ifs with before after
    · have absent : find? key (entry :: entries) = none := find?_of_lt fun other member => by
        obtain same | later := List.mem_cons.mp member
        · exact same ▸ before
        · exact lt_trans before (least other later)
      rw [absent, find?, if_pos rfl, Option.getD_none]
    · rw [find?, if_neg (ne_of_lt after), ih rest, find?, if_neg (ne_of_lt after)]
    · have same : entry.1 = key := le_antisymm (not_lt.mp before) (not_lt.mp after)
      rw [find?, if_pos same, Option.getD_some]

theorem find?_modify (key other : κ) (change : ν → ν) (entries : List (κ × ν)) :
    find? other (modify key change entries) =
      (find? other entries).map fun value => if other = key then change value else value := by
  induction entries with
  | nil => rfl
  | cons entry entries ih =>
    rw [modify] at ih
    rw [modify, List.map_cons, find?, ih, find?]
    by_cases same : entry.1 = other
    · by_cases changed : other = key
      · simp [same, changed]
      · simp [same, changed]
    · by_cases changed : entry.1 = key
      · simp [changed, changed ▸ same]
      · simp [same, changed]

/-- Nothing changes for a key that is there. -/
theorem tryEmplace_of_mem {entries : List (κ × ν)} (ordered : Ordered entries) {key : κ} (value : ν)
    (present : key ∈ entries.map Prod.fst) : tryEmplace key value entries = entries := by
  induction entries with
  | nil => cases present
  | cons entry entries ih =>
    obtain ⟨least, rest⟩ := List.pairwise_cons.mp ordered
    obtain rfl | later := List.mem_cons.mp present
    · rw [tryEmplace, if_neg (lt_irrefl _), if_neg (lt_irrefl _)]
    · have after := least key later
      rw [tryEmplace, if_neg (lt_asymm after), if_pos after, ih rest later]

theorem find?_of_mem {entries : List (κ × ν)} (ordered : Ordered entries) {entry : κ × ν} (member : entry ∈ entries) :
    find? entry.1 entries = some entry.2 := by
  induction entries with
  | nil => cases member
  | cons first entries ih =>
    obtain ⟨least, rest⟩ := List.pairwise_cons.mp ordered
    obtain rfl | later := List.mem_cons.mp member
    · rw [find?, if_pos rfl]
    · rw [find?, if_neg (ne_of_lt (least _ (List.mem_map_of_mem later))), ih rest later]

/-- A map by its keys and what is found for them. -/
theorem Ordered.eq_map {entries : List (κ × ν)} (ordered : Ordered entries) (value : ν) :
    entries = (entries.map Prod.fst).map fun key => (key, (find? key entries).getD value) := by
  have same : ∀ entry ∈ entries, (entry.1, (find? entry.1 entries).getD value) = id entry := by
    intro entry member
    rw [find?_of_mem ordered member, Option.getD_some, id]
  rw [List.map_map]
  exact ((List.map_congr_left same).trans (List.map_id entries)).symm

theorem mem_of_find? {key : κ} {value : ν} {entries : List (κ × ν)} (found : find? key entries = some value) :
    (key, value) ∈ entries := by
  induction entries with
  | nil => cases found
  | cons entry entries ih =>
    rw [find?] at found
    split_ifs at found with same
    · cases found
      exact List.mem_cons.mpr (.inl (same ▸ rfl))
    · exact List.mem_cons_of_mem _ (ih found)

theorem length_modify (key : κ) (change : ν → ν) (entries : List (κ × ν)) :
    (modify key change entries).length = entries.length := List.length_map _

theorem modify_of_notMem {key : κ} (change : ν → ν) {entries : List (κ × ν)} (absent : key ∉ entries.map Prod.fst) :
    modify key change entries = entries := by
  have same : ∀ entry ∈ entries, (if entry.1 = key then (entry.1, change entry.2) else entry) = id entry := by
    intro entry member
    exact if_neg fun equal : entry.1 = key => absent (equal ▸ List.mem_map_of_mem member)
  exact (List.map_congr_left same).trans (List.map_id entries)

/-- A key that is not there makes the map longer by one. -/
theorem length_tryEmplace {key : κ} {entries : List (κ × ν)} (value : ν) (absent : key ∉ entries.map Prod.fst) :
    (tryEmplace key value entries).length = entries.length + 1 := by
  induction entries with
  | nil => rfl
  | cons entry entries ih =>
    rw [List.map_cons, List.mem_cons, not_or] at absent
    rw [tryEmplace]
    split_ifs with before after
    · rfl
    · rw [List.length_cons, ih absent.2, List.length_cons]
    · exact absurd (le_antisymm (not_lt.mp after) (not_lt.mp before)) absent.1

section Sums

variable (weight : ν → ℕ)

/-- What weighs nothing adds nothing. -/
theorem sum_tryEmplace (key : κ) {value : ν} (light : weight value = 0) (entries : List (κ × ν)) :
    ((tryEmplace key value entries).map fun entry => weight entry.2).sum =
      (entries.map fun entry => weight entry.2).sum := by
  induction entries with
  | nil => simp [tryEmplace, light]
  | cons entry entries ih =>
    rw [tryEmplace]
    split_ifs with before after
    · simp [light]
    · rw [List.map_cons, List.sum_cons, ih, List.map_cons, List.sum_cons]
    · rfl

/-- A value that gets heavier by one makes the map heavier by one. -/
theorem sum_modify {key : κ} {change : ν → ν} (heavier : ∀ value, weight (change value) = weight value + 1)
    {entries : List (κ × ν)} (ordered : Ordered entries) (present : key ∈ entries.map Prod.fst) :
    ((modify key change entries).map fun entry => weight entry.2).sum =
      (entries.map fun entry => weight entry.2).sum + 1 := by
  induction entries with
  | nil => cases present
  | cons entry entries ih =>
    obtain ⟨least, rest⟩ := List.pairwise_cons.mp ordered
    rw [modify] at ih
    rw [modify, List.map_cons, List.map_cons, List.sum_cons, List.map_cons, List.sum_cons]
    split_ifs with same
    · have absent : key ∉ entries.map Prod.fst := fun member => lt_irrefl key (same ▸ least key member)
      have untouched := modify_of_notMem change absent
      rw [modify] at untouched
      rw [untouched, heavier]
      omega
    · obtain first | later := List.mem_cons.mp present
      · exact absurd first.symm same
      · rw [ih rest later]
        omega

end Sums

/-! ## Values mapped to others -/

section MapValues

variable {μ : Type*} (f : ν → μ)

/-- The keys stay, the values are mapped. -/
def mapValues (entries : List (κ × ν)) : List (κ × μ) := entries.map fun entry => (entry.1, f entry.2)

omit [LinearOrder κ] in
theorem keys_mapValues (entries : List (κ × ν)) : (mapValues f entries).map Prod.fst = entries.map Prod.fst := by
  rw [mapValues, List.map_map]
  rfl

theorem find?_mapValues (key : κ) (entries : List (κ × ν)) :
    find? key (mapValues f entries) = (find? key entries).map f := by
  induction entries with
  | nil => rfl
  | cons entry entries ih =>
    rw [mapValues] at ih
    rw [mapValues, List.map_cons, find?, ih, find?]
    split_ifs <;> rfl

theorem tryEmplace_mapValues (key : κ) (value : ν) (entries : List (κ × ν)) :
    tryEmplace key (f value) (mapValues f entries) = mapValues f (tryEmplace key value entries) := by
  induction entries with
  | nil => rfl
  | cons entry entries ih =>
    rw [mapValues] at ih
    rw [mapValues, List.map_cons, tryEmplace, ih, tryEmplace]
    split_ifs <;> rfl

theorem modify_mapValues {key : κ} {change : ν → ν} {change' : μ → μ}
    (commutes : ∀ value, change' (f value) = f (change value))
    (entries : List (κ × ν)) : modify key change' (mapValues f entries) = mapValues f (modify key change entries) := by
  rw [modify, mapValues, List.map_map, mapValues, modify, List.map_map]
  apply List.map_congr_left
  intro entry _
  simp only [Function.comp_apply, commutes]
  split_ifs <;> rfl

end MapValues

/-! ## Items by their keys -/

/-- The value of a key, whether it has one yet or not. -/
def put (key : κ) (value : ν) (entries : List (κ × ν)) : List (κ × ν) :=
  modify key (fun _ => value) (tryEmplace key value entries)

theorem Ordered.put {entries : List (κ × ν)} (ordered : Ordered entries) (key : κ) (value : ν) :
    Ordered (put key value entries) := (ordered.tryEmplace key value).modify key _

theorem find?_put_self {entries : List (κ × ν)} (ordered : Ordered entries) (key : κ) (value : ν) :
    find? key (put key value entries) = some value := by
  rw [put, find?_modify, find?_tryEmplace_self ordered, Option.map_some, if_pos rfl]

theorem find?_put_of_ne {key other : κ} (differs : other ≠ key) (value : ν) (entries : List (κ × ν)) :
    find? other (put key value entries) = find? other entries := by
  rw [put, find?_modify, find?_tryEmplace_of_ne differs]
  simp only [if_neg differs, Option.map_id']

theorem mem_put {key : κ} {value : ν} {entries : List (κ × ν)} {entry : κ × ν} (member : entry ∈ put key value entries) :
    entry = (key, value) ∨ entry ∈ entries := by
  obtain ⟨before, inside, rfl⟩ := List.mem_map.mp member
  rcases mem_tryEmplace inside with rfl | old
  · exact .inl (by rw [if_pos rfl])
  · split_ifs with same
    · exact .inl (by rw [same])
    · exact .inr old

theorem mem_keys_put {key other : κ} {value : ν} {entries : List (κ × ν)} :
    other ∈ (put key value entries).map Prod.fst ↔ other = key ∨ other ∈ entries.map Prod.fst := by
  rw [put, keys_modify, mem_keys_tryEmplace]

/-- Entries that are put one after the other, of which the last one of a key counts. -/
theorem Ordered.foldl_put {map : List (κ × ν)} (ordered : Ordered map) (entries : List (κ × ν)) :
    Ordered (entries.foldl (fun map entry => OrderedMap.put entry.1 entry.2 map) map) := by
  induction entries generalizing map with
  | nil => exact ordered
  | cons entry entries ih => exact ih (ordered.put entry.1 entry.2)

theorem mem_keys_foldl_put {key : κ} {map entries : List (κ × ν)} :
    key ∈ (entries.foldl (fun map entry => put entry.1 entry.2 map) map).map Prod.fst ↔
      key ∈ entries.map Prod.fst ∨ key ∈ map.map Prod.fst := by
  induction entries generalizing map with
  | nil => simp
  | cons entry entries ih =>
    rw [List.foldl_cons, ih, mem_keys_put, List.map_cons, List.mem_cons]
    tauto

theorem mem_foldl_put {entry : κ × ν} {map entries : List (κ × ν)}
    (member : entry ∈ entries.foldl (fun map entry => put entry.1 entry.2 map) map) : entry ∈ entries ∨ entry ∈ map := by
  induction entries generalizing map with
  | nil => exact .inr member
  | cons first entries ih =>
    obtain later | before := ih member
    · exact .inl (List.mem_cons_of_mem _ later)
    · obtain rfl | old := mem_put before
      · exact .inl List.mem_cons_self
      · exact .inr old

theorem Ordered.nodup {entries : List (κ × ν)} (ordered : Ordered entries) : (entries.map Prod.fst).Nodup :=
  List.Pairwise.imp ne_of_lt ordered

/-- As many entries are left as there are keys. -/
theorem length_foldl_put [DecidableEq κ] (entries : List (κ × ν)) :
    (entries.foldl (fun map entry => put entry.1 entry.2 map) []).length = (entries.map Prod.fst).dedup.length := by
  have ordered : Ordered (entries.foldl (fun map entry => put entry.1 entry.2 map) []) :=
    Ordered.foldl_put ordered_nil entries
  have same := (List.perm_ext_iff_of_nodup ordered.nodup (List.nodup_dedup (entries.map Prod.fst))).mpr fun key => by
    rw [mem_keys_foldl_put, List.mem_dedup]
    simp
  rw [← same.length_eq, List.length_map]

/-- Items one after the other, each under its key. -/
def keyed (key : ν → κ) (items : List ν) : List (κ × ν) := items.foldl (fun map item => put (key item) item map) []

section Keyed

variable {key : ν → κ}

theorem keyed_concat (items : List ν) (item : ν) : keyed key (items ++ [item]) = put (key item) item (keyed key items) := by
  rw [keyed, List.foldl_append]
  rfl

theorem ordered_keyed (items : List ν) : Ordered (keyed key items) := by
  induction items using List.reverseRecOn with
  | nil => exact List.Pairwise.nil
  | append_singleton items item ih =>
    rw [keyed_concat]
    exact ih.put _ _

theorem mem_of_mem_keyed {items : List ν} {entry : κ × ν} (member : entry ∈ keyed key items) : entry.2 ∈ items := by
  induction items using List.reverseRecOn with
  | nil => cases member
  | append_singleton items item ih =>
    rw [keyed_concat] at member
    rcases mem_put member with rfl | before
    · exact List.mem_append_right _ (List.mem_singleton_self _)
    · exact List.mem_append_left _ (ih before)

/-- Of items with keys of their own each is under its key. -/
theorem find?_keyed {items : List ν} (apart : ∀ item ∈ items, ∀ other ∈ items, key item = key other → item = other)
    {item : ν} (member : item ∈ items) : find? (key item) (keyed key items) = some item := by
  induction items using List.reverseRecOn with
  | nil => cases member
  | append_singleton items last ih =>
    rw [keyed_concat]
    rcases eq_or_ne (key item) (key last) with same | differs
    · have isLast := apart item member last (List.mem_append_right _ (List.mem_singleton_self _)) same
      rw [same, find?_put_self (ordered_keyed items), isLast]
    · have before : item ∈ items := by
        rcases List.mem_append.mp member with before | after
        · exact before
        · exact absurd (congrArg key (List.mem_singleton.mp after)) differs
      rw [find?_put_of_ne differs]
      exact ih (fun one first two second =>
        apart one (List.mem_append_left _ first) two (List.mem_append_left _ second)) before

/-- The items that satisfy a condition which one item alone satisfies. -/
theorem find?_values_keyed {items : List ν} (apart : ∀ item ∈ items, ∀ other ∈ items, key item = key other → item = other)
    {holds : ν → Bool} {item : ν} (member : item ∈ items) (satisfied : holds item = true)
    (alone : ∀ other ∈ items, holds other = true → other = item) :
    ((keyed key items).map Prod.snd).find? holds = some item := by
  have inside : item ∈ (keyed key items).map Prod.snd :=
    List.mem_map.mpr ⟨_, mem_of_find? (find?_keyed apart member), rfl⟩
  cases found : ((keyed key items).map Prod.snd).find? holds with
  | none => exact absurd satisfied (List.find?_eq_none.mp found item inside)
  | some other =>
    obtain ⟨entry, isEntry, rfl⟩ := List.mem_map.mp (List.mem_of_find?_eq_some found)
    rw [alone entry.2 (mem_of_mem_keyed isEntry) (List.find?_some found)]

end Keyed

/-! ## Maps built of entries -/

/-- The entries emplaced one after the other. -/
def ofEntries (entries : List (κ × ν)) : List (κ × ν) :=
  entries.foldl (fun map entry => tryEmplace entry.1 entry.2 map) []

/-- Of the entries of one key the first is found. -/
theorem find?_ofEntries (key : κ) (entries : List (κ × ν)) : find? key (ofEntries entries) = find? key entries := by
  suffices found : ∀ map : List (κ × ν), Ordered map →
      find? key (entries.foldl (fun map entry => tryEmplace entry.1 entry.2 map) map) =
        (find? key map).or (find? key entries) from found [] ordered_nil
  induction entries with
  | nil =>
    intro map _
    rw [List.foldl_nil, find?, Option.or_none]
  | cons entry entries ih =>
    intro map ordered
    rw [List.foldl_cons, ih _ (ordered.tryEmplace _ _), find?]
    split_ifs with same
    · rw [same, find?_tryEmplace_self ordered]
      cases find? key map <;> rfl
    · rw [find?_tryEmplace_of_ne (Ne.symm same)]

theorem tryEmplace_of_gt {key : κ} {entries : List (κ × ν)} (value : ν)
    (above : ∀ other ∈ entries.map Prod.fst, other < key) : tryEmplace key value entries = entries ++ [(key, value)] := by
  induction entries with
  | nil => rfl
  | cons entry entries ih =>
    obtain ⟨first, rest⟩ := List.forall_mem_cons.mp above
    rw [tryEmplace, if_neg (lt_asymm first), if_pos first, ih rest, List.cons_append]

/-- Entries in the order of their keys are the map. -/
theorem Ordered.ofEntries_eq {entries : List (κ × ν)} (ordered : Ordered entries) : ofEntries entries = entries := by
  suffices appended : ∀ map : List (κ × ν), Ordered (map ++ entries) →
      entries.foldl (fun map entry => OrderedMap.tryEmplace entry.1 entry.2 map) map = map ++ entries from
    appended [] ordered
  clear ordered
  induction entries with
  | nil =>
    intro map _
    rw [List.foldl_nil, List.append_nil]
  | cons entry entries ih =>
    intro map ordered
    have apart : ∀ other ∈ map.map Prod.fst, other < entry.1 := by
      intro other member
      rw [Ordered, List.map_append, List.pairwise_append] at ordered
      exact ordered.2.2 other member entry.1 List.mem_cons_self
    have whole : map ++ [entry] ++ entries = map ++ entry :: entries := List.append_cons map entry entries |>.symm
    rw [List.foldl_cons, tryEmplace_of_gt _ apart, ih (map ++ [entry]) (whole ▸ ordered), whole]

/-- The search of lists is that of maps. -/
theorem lookup_eq_find? [BEq κ] [LawfulBEq κ] (key : κ) (entries : List (κ × ν)) :
    entries.lookup key = find? key entries := by
  induction entries with
  | nil => rfl
  | cons entry entries ih =>
    obtain ⟨other, value⟩ := entry
    rw [List.lookup_cons, find?, ih]
    split_ifs with same
    · rw [same, beq_self_eq_true]
    · rw [beq_eq_false_iff_ne.mpr (Ne.symm same)]

end OrderedMap

end OpalCpp
