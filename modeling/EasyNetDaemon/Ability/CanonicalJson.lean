import EasyNetDaemon.Library.JsonText
import EasyNetDaemon.Library.Utf8
import Mathlib.Data.List.Perm.Basic
import Mathlib.Data.List.Sort

/-!
# Canonical JSON

Hashes, idempotency keys and the links of the policy journal are taken over the canonical bytes of a
JSON value: the members of every object are put into the order of their keys, and the value is then
written compactly.

An object is the list of its members in the order in which the map iterates over them, with no key
twice. Two values have the same canonical bytes exactly when they are equal up to the order of
members at every depth: sorting forgets the order and nothing else, and the bytes can be read back
(`Json.write_inj`).
-/

namespace EasyNetDaemon.Ability

open Library Library.Json

/-! ## Sorting -/

/-- `Map::insert`: the value of a key that is there is replaced, a new key goes to the end. -/
def insertMember (key : String) (value : Json) : List (String × Json) → List (String × Json)
  | [] => [(key, value)]
  | (k, v) :: rest =>
    if k = key then (k, value) :: rest else (k, v) :: insertMember key value rest

/-- The loop over the sorted keys of a map. -/
def sortMembers (map : List (String × Json)) : List (String × Json) :=
  ((map.map Prod.fst).insertionSort (· ≤ ·)).foldl (fun sorted key =>
    match map.lookup key with
    | some value => insertMember key value sorted
    | none => sorted) []

mutual

/-- Sorts the keys of every object. -/
def sortJsonValue : Json → Json
  | .object map => .object (sortMembers (sortValues map))
  | .array values => .array (sortItems values)
  | other => other

/-- Sorts inside the items of an array. -/
def sortItems : List Json → List Json
  | [] => []
  | v :: items => sortJsonValue v :: sortItems items

/-- Sorts inside the values of an object. -/
def sortValues : List (String × Json) → List (String × Json)
  | [] => []
  | (key, v) :: map => (key, sortJsonValue v) :: sortValues map

end

theorem sortValues_eq_map (map : List (String × Json)) :
    sortValues map = map.map fun p => (p.1, sortJsonValue p.2) := by
  induction map with
  | nil => rfl
  | cons p map ih => rw [sortValues, ih, List.map_cons]

theorem keys_sortValues (map : List (String × Json)) :
    (sortValues map).map Prod.fst = map.map Prod.fst := by
  rw [sortValues_eq_map, List.map_map]
  rfl

/-! ## The sorted members -/

variable {sorted : List (String × Json)}

theorem insertMember_of_notMem {key : String} (value : Json) (h : key ∉ sorted.map Prod.fst) :
    insertMember key value sorted = sorted ++ [(key, value)] := by
  induction sorted with
  | nil => rfl
  | cons p rest ih =>
    obtain ⟨k, v⟩ := p
    rw [List.map_cons, List.mem_cons, not_or] at h
    rw [insertMember, if_neg (Ne.symm h.1), ih h.2, List.cons_append]

/-- As long as the keys are new, the loop appends the members they stand for. -/
theorem foldl_insertMember (map : List (String × Json)) {keys : List String}
    (h : (sorted.map Prod.fst ++ keys).Nodup) :
    keys.foldl (fun sorted key =>
      match map.lookup key with
      | some value => insertMember key value sorted
      | none => sorted) sorted = sorted ++ entriesAt map keys := by
  induction keys generalizing sorted with
  | nil => exact (List.append_nil sorted).symm
  | cons key keys ih =>
    rw [List.foldl_cons]
    cases hkey : map.lookup key with
    | none =>
      have hkeys : (sorted.map Prod.fst ++ keys).Nodup :=
        h.sublist ((List.sublist_cons_self key keys).append_left _)
      simp only [ih hkeys, entriesAt, List.filterMap_cons, hkey, Option.map_none]
    | some value =>
      have hnew : key ∉ sorted.map Prod.fst := fun hmem =>
        (List.nodup_append.1 h).2.2 key hmem key List.mem_cons_self rfl
      have hkeys : ((sorted ++ [(key, value)]).map Prod.fst ++ keys).Nodup := by
        simpa using h
      simp only [insertMember_of_notMem value hnew, ih hkeys, entriesAt, List.filterMap_cons, hkey,
        Option.map_some, List.append_assoc, List.singleton_append]

section Members

variable {map : List (String × Json)} (h : (map.map Prod.fst).Nodup)

include h

theorem sortMembers_eq :
    sortMembers map = entriesAt map ((map.map Prod.fst).insertionSort (· ≤ ·)) := by
  have hnodup : ((map.map Prod.fst).insertionSort (· ≤ ·)).Nodup :=
    (List.perm_insertionSort _ _).nodup_iff.2 h
  exact (foldl_insertMember map (by simpa using hnodup)).trans (List.nil_append _)

theorem sortMembers_perm : (sortMembers map).Perm map := by
  rw [sortMembers_eq h]
  exact entriesAt_perm h (List.perm_insertionSort _ _)

theorem keys_sortMembers : ((sortMembers map).map Prod.fst).Pairwise (· < ·) := by
  have hle : ((sortMembers map).map Prod.fst).Pairwise (· ≤ ·) := by
    rw [sortMembers_eq h]
    exact (List.pairwise_insertionSort (· ≤ ·) (map.map Prod.fst)).sublist
      (keys_entriesAt_sublist _ _)
  have hne : ((sortMembers map).map Prod.fst).Nodup :=
    ((sortMembers_perm h).map Prod.fst).nodup_iff.2 h
  exact (hle.and hne).imp fun hab => lt_of_le_of_ne hab.1 hab.2

/-- The sorted members tell the members apart from their order. -/
theorem sortMembers_eq_iff {map' : List (String × Json)} (h' : (map'.map Prod.fst).Nodup) :
    sortMembers map = sortMembers map' ↔ map.Perm map' := by
  constructor
  · intro heq
    exact (sortMembers_perm h).symm.trans (heq ▸ sortMembers_perm h')
  · intro hperm
    exact eq_of_perm_of_keys_lt
      ((sortMembers_perm h).trans (hperm.trans (sortMembers_perm h').symm))
      (keys_sortMembers h) (keys_sortMembers h')

end Members

/-! ## Values -/

theorem object_distinct {map : List (String × Json)} (h : distinctKeys (.object map) = true) :
    (map.map Prod.fst).Nodup ∧ ((sortValues map).map Prod.fst).Nodup ∧
      distinctKeysFields map = true := by
  simp only [distinctKeys, Bool.and_eq_true, decide_eq_true_eq] at h
  refine ⟨h.1, ?_, h.2⟩
  rw [keys_sortValues]
  exact h.1

mutual

theorem wellFormed_sortJsonValue : ∀ v : Json, wellFormed v = true → distinctKeys v = true →
    wellFormed (sortJsonValue v) = true
  | .null, _, _ => rfl
  | .bool _, _, _ => rfl
  | .int _, _, _ => rfl
  | .decimal _, h, _ => h
  | .string _, _, _ => rfl
  | .array items, h, hkeys => wellFormed_sortItems items h hkeys
  | .object map, h, hkeys => by
    obtain ⟨-, hsorted, hvalues⟩ := object_distinct hkeys
    have hvalues' := wellFormedFields_iff.1 (wellFormed_sortValues map h hvalues)
    exact wellFormedFields_iff.2 fun p hp => hvalues' p ((sortMembers_perm hsorted).mem_iff.1 hp)

theorem wellFormed_sortItems : ∀ items : List Json, wellFormedItems items = true →
    distinctKeysItems items = true → wellFormedItems (sortItems items) = true
  | [], _, _ => rfl
  | v :: items, h, hkeys => by
    simp only [wellFormedItems, distinctKeysItems, Bool.and_eq_true] at h hkeys
    simp only [sortItems, wellFormedItems, Bool.and_eq_true]
    exact ⟨wellFormed_sortJsonValue v h.1 hkeys.1, wellFormed_sortItems items h.2 hkeys.2⟩

theorem wellFormed_sortValues : ∀ map : List (String × Json), wellFormedFields map = true →
    distinctKeysFields map = true → wellFormedFields (sortValues map) = true
  | [], _, _ => rfl
  | (_, v) :: map, h, hkeys => by
    simp only [wellFormedFields, distinctKeysFields, Bool.and_eq_true] at h hkeys
    simp only [sortValues, wellFormedFields, Bool.and_eq_true]
    exact ⟨wellFormed_sortJsonValue v h.1 hkeys.1, wellFormed_sortValues map h.2 hkeys.2⟩

end

mutual

/-- Sorting forgets the order of members. -/
theorem sortJsonValue_eq_of_reordered : ∀ {a b : Json}, Reordered a b → distinctKeys a = true →
    sortJsonValue a = sortJsonValue b
  | _, _, .null, _ => rfl
  | _, _, .bool _, _ => rfl
  | _, _, .int _, _ => rfl
  | _, _, .decimal _, _ => rfl
  | _, _, .string _, _ => rfl
  | _, _, .array h, hkeys => congrArg Json.array (sortItems_eq_of_reordered h hkeys)
  | _, _, @Reordered.object map _ map' h hperm, hkeys => by
    obtain ⟨hnodup, hsorted, hvalues⟩ := object_distinct hkeys
    rw [h.keys_eq, (hperm.map Prod.fst).nodup_iff, ← keys_sortValues] at hnodup
    have hsort : (sortValues map).Perm (sortValues map') := by
      rw [sortValues_eq_of_reordered h hvalues, sortValues_eq_map, sortValues_eq_map]
      exact hperm.map _
    exact congrArg Json.object ((sortMembers_eq_iff hsorted hnodup).2 hsort)

theorem sortItems_eq_of_reordered : ∀ {items items' : List Json}, ReorderedItems items items' →
    distinctKeysItems items = true → sortItems items = sortItems items'
  | _, _, .nil, _ => rfl
  | _, _, .cons h hrest, hkeys => by
    simp only [distinctKeysItems, Bool.and_eq_true] at hkeys
    rw [sortItems, sortItems, sortJsonValue_eq_of_reordered h hkeys.1,
      sortItems_eq_of_reordered hrest hkeys.2]

theorem sortValues_eq_of_reordered : ∀ {map map' : List (String × Json)},
    ReorderedFields map map' → distinctKeysFields map = true → sortValues map = sortValues map'
  | _, _, .nil, _ => rfl
  | _, _, .cons h hrest, hkeys => by
    simp only [distinctKeysFields, Bool.and_eq_true] at hkeys
    rw [sortValues, sortValues, sortJsonValue_eq_of_reordered h hkeys.1,
      sortValues_eq_of_reordered hrest hkeys.2]

end

/-- Members with the sorted values of `map` in another order come from a rearrangement of `map`. -/
theorem exists_sortValues_eq {map : List (String × Json)} (h : sorted.Perm (sortValues map)) :
    ∃ between, sorted = sortValues between ∧
      between.Perm map := by
  have hmap : List.Forall₂ (fun p q => p = (q.1, sortJsonValue q.2)) (sortValues map) map := by
    rw [sortValues_eq_map, List.forall₂_map_left_iff]
    exact List.forall₂_same.2 fun _ _ => rfl
  obtain ⟨between, hbetween, hperm⟩ := List.perm_comp_forall₂ h hmap
  refine ⟨between, ?_, hperm⟩
  rw [sortValues_eq_map]
  exact List.forall₂_eq_eq_eq ▸ List.forall₂_map_right_iff.2 hbetween

mutual

/-- Sorting forgets nothing else. -/
theorem reordered_of_sortJsonValue_eq : ∀ (a b : Json), distinctKeys a = true →
    distinctKeys b = true → sortJsonValue a = sortJsonValue b → Reordered a b := by
  intro a b ha hb h
  match a, b with
  | .null, .null => exact .null
  | .bool _, .bool _ => cases h; exact .bool _
  | .int _, .int _ => cases h; exact .int _
  | .decimal _, .decimal _ => cases h; exact .decimal _
  | .string _, .string _ => cases h; exact .string _
  | .array items, .array items' =>
    exact .array (reordered_of_sortItems_eq items items' ha hb (Json.array.inj h))
  | .object map, .object map' =>
    obtain ⟨-, hsorted, hvalues⟩ := object_distinct ha
    obtain ⟨-, hsorted', hvalues'⟩ := object_distinct hb
    have hperm := (sortMembers_eq_iff hsorted hsorted').1 (Json.object.inj h)
    obtain ⟨between, heq, hbetween⟩ := exists_sortValues_eq hperm
    have hdistinct : distinctKeysFields between = true := distinctKeysFields_iff.2 fun p hp =>
      distinctKeysFields_iff.1 hvalues' p (hbetween.mem_iff.1 hp)
    exact .object (reordered_of_sortValues_eq map between hvalues hdistinct heq) hbetween

theorem reordered_of_sortItems_eq : ∀ (items items' : List Json),
    distinctKeysItems items = true → distinctKeysItems items' = true →
    sortItems items = sortItems items' → ReorderedItems items items'
  | [], [], _, _, _ => .nil
  | v :: items, w :: items', ha, hb, h => by
    simp only [distinctKeysItems, Bool.and_eq_true] at ha hb
    obtain ⟨hvalue, hitems⟩ := List.cons.inj h
    exact .cons (reordered_of_sortJsonValue_eq v w ha.1 hb.1 hvalue)
      (reordered_of_sortItems_eq items items' ha.2 hb.2 hitems)

theorem reordered_of_sortValues_eq : ∀ (map map' : List (String × Json)),
    distinctKeysFields map = true → distinctKeysFields map' = true →
    sortValues map = sortValues map' → ReorderedFields map map'
  | [], [], _, _, _ => .nil
  | (key, v) :: map, (key', w) :: map', ha, hb, h => by
    simp only [distinctKeysFields, Bool.and_eq_true] at ha hb
    obtain ⟨hhead, hmap⟩ := List.cons.inj h
    obtain ⟨rfl, hvalue⟩ := Prod.mk.inj hhead
    exact .cons (reordered_of_sortJsonValue_eq v w ha.1 hb.1 hvalue)
      (reordered_of_sortValues_eq map map' ha.2 hb.2 hmap)

end

/-! ## Canonical bytes -/

/-- A value of the JSON library: numbers are written as such, and a map has every key once. -/
structure Value where
  json : Json
  wellFormed : json.wellFormed = true
  distinctKeys : json.distinctKeys = true

/-- The UTF-8 text of the sorted value. -/
def canonicalJsonBytes (value : Value) : List UInt8 := utf8 (write (sortJsonValue value.json))

/-- The canonical bytes decide equality up to the order of members. -/
theorem canonicalJsonBytes_eq_iff (a b : Value) :
    canonicalJsonBytes a = canonicalJsonBytes b ↔ Reordered a.json b.json := by
  constructor
  · intro h
    have hsort : sortJsonValue a.json = sortJsonValue b.json :=
      write_inj (wellFormed_sortJsonValue _ a.wellFormed a.distinctKeys)
        (wellFormed_sortJsonValue _ b.wellFormed b.distinctKeys) (utf8_injective h)
    exact reordered_of_sortJsonValue_eq _ _ a.distinctKeys b.distinctKeys hsort
  · intro h
    unfold canonicalJsonBytes
    rw [sortJsonValue_eq_of_reordered h a.distinctKeys]

/-- Arguments of an invocation with an object inside. -/
def sampleArgs : Value where
  json := .object [("path", .string "a.txt"), ("options", .object [("mode", .int 420),
    ("tags", .array [.null, .decimal "0.5"])])]
  wellFormed := by decide
  distinctKeys := by decide

/-- The same arguments with the members of both objects in another order. -/
def reorderedArgs : Value where
  json := .object [("options", .object [("tags", .array [.null, .decimal "0.5"]),
    ("mode", .int 420)]), ("path", .string "a.txt")]
  wellFormed := by decide
  distinctKeys := by decide

theorem canonicalJsonBytes_reorderedArgs :
    canonicalJsonBytes sampleArgs = canonicalJsonBytes reorderedArgs ∧
      Reordered sampleArgs.json reorderedArgs.json := by
  have hbytes : canonicalJsonBytes sampleArgs = canonicalJsonBytes reorderedArgs := by
    decide +kernel
  exact ⟨hbytes, (canonicalJsonBytes_eq_iff sampleArgs reorderedArgs).1 hbytes⟩

end EasyNetDaemon.Ability
