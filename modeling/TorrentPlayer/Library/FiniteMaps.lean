import Mathlib.Data.List.AList

namespace TorrentPlayer.Library

open List AList

/-!
# Finite maps

Association lists with distinct keys serve as the hash maps of a model.  This
file adds the one traversal that `AList` does not have: visiting every entry,
with the choice of a new value or of dropping the entry.
-/

universe u v

abbrev FiniteMap (Key : Type u) (Value : Type v) : Type (max u v) :=
  AList (fun _ : Key => Value)

namespace FiniteMap

variable {Key : Type u} {Value : Type v}

private def retainEntry (keep : Key -> Value -> Option Value) (entry : Sigma fun _ : Key => Value) :
    Option (Sigma fun _ : Key => Value) :=
  (keep entry.1 entry.2).map (fun value => ⟨entry.1, value⟩)

private theorem retainEntries_cons (keep : Key -> Value -> Option Value) (key : Key)
    (value : Value) (entries : List (Sigma fun _ : Key => Value)) :
    (⟨key, value⟩ :: entries).filterMap (retainEntry keep) = match keep key value with
      | none => entries.filterMap (retainEntry keep)
      | some after => ⟨key, after⟩ :: entries.filterMap (retainEntry keep) := by
  cases kept : keep key value <;> simp [retainEntry, kept]

private theorem keys_retainEntries (keep : Key -> Value -> Option Value) :
    ∀ entries : List (Sigma fun _ : Key => Value),
      (entries.filterMap (retainEntry keep)).keys.Sublist entries.keys
  | [] => List.Sublist.refl _
  | ⟨key, value⟩ :: entries => by
      have rest := keys_retainEntries keep entries
      rw [retainEntries_cons]
      cases keep key value with
      | none => exact rest.cons _
      | some => exact rest.cons_cons _

/-- Visit every entry.  `keep` gives the entry's new value, or `none` to drop
the entry. -/
def retain (map : FiniteMap Key Value) (keep : Key -> Value -> Option Value) : FiniteMap Key Value where
  entries := map.entries.filterMap (retainEntry keep)
  nodupKeys := (keys_retainEntries keep map.entries).nodup map.nodupKeys

variable [DecidableEq Key]

private theorem dlookup_retainEntries (keep : Key -> Value -> Option Value) (key : Key) :
    ∀ entries : List (Sigma fun _ : Key => Value), entries.NodupKeys ->
      (entries.filterMap (retainEntry keep)).dlookup key = (entries.dlookup key).bind (keep key)
  | [], _ => rfl
  | ⟨first, value⟩ :: entries, nodup => by
      obtain ⟨fresh, rest⟩ := nodupKeys_cons.mp nodup
      have ih := dlookup_retainEntries keep key entries rest
      rw [retainEntries_cons]
      by_cases same : first = key
      · subst same
        rw [dlookup_cons_eq, Option.bind_some]
        cases keep first value with
        | none =>
          rw [ih, dlookup_eq_none.mpr fresh]
          rfl
        | some => exact dlookup_cons_eq _ _ _
      · have different : key ≠ first := fun equal => same equal.symm
        rw [dlookup_cons_ne entries ⟨first, value⟩ different, <- ih]
        cases keep first value with
        | none => rfl
        | some => exact dlookup_cons_ne _ _ different

variable (map : FiniteMap Key Value) (key other : Key) (value : Value)

@[simp] theorem lookup_retain (keep : Key -> Value -> Option Value) (key : Key) :
    (retain map keep).lookup key = (map.lookup key).bind (keep key) :=
  dlookup_retainEntries keep key map.entries map.nodupKeys

theorem lookup_retain_ne [DecidableEq Value] (map : FiniteMap Key Value) (dropped value : Value) (key : Key) :
    (retain map (fun _ other => if other = dropped then none else some other)).lookup key =
      some value <-> map.lookup key = some value /\ value ≠ dropped := by
  rw [lookup_retain, Option.bind_eq_some_iff]
  constructor
  · rintro ⟨before, found, same⟩
    split at same
    · cases same
    rename_i different
    cases same
    exact ⟨found, different⟩
  · rintro ⟨found, different⟩
    exact ⟨value, found, if_neg different⟩

theorem mem_entries_iff :
    (⟨key, value⟩ : Sigma fun _ : Key => Value) ∈ map.entries <-> map.lookup key = some value :=
  (mem_lookup_iff (s := map)).symm

theorem lookup_insert_eq : (AList.insert key value map).lookup other =
    if key = other then some value else map.lookup other := by
  by_cases same : key = other
  · subst same
    rw [if_pos rfl, lookup_insert]
  · rw [if_neg same, lookup_insert_ne (fun equal => same equal.symm)]

theorem forall_lookup_insert {map : FiniteMap Key Value} {key : Key} {value : Value}
    {holds : Key -> Value -> Prop} (new : holds key value)
    (old : ∀ other found, map.lookup other = some found -> holds other found) :
    ∀ other found, (AList.insert key value map).lookup other = some found -> holds other found := by
  intro other found isFound
  rw [lookup_insert_eq] at isFound
  split at isFound
  next same =>
    cases isFound
    exact same ▸ new
  · exact old other found isFound

theorem lookup_erase_eq :
    (AList.erase key map).lookup other = if key = other then none else map.lookup other := by
  by_cases same : key = other
  · subst same
    rw [if_pos rfl, lookup_erase]
  · rw [if_neg same, lookup_erase_ne (fun equal => same equal.symm)]

theorem lookup_of_erase {map : FiniteMap Key Value} {key other : Key} {value : Value}
    (found : (AList.erase key map).lookup other = some value) : map.lookup other = some value := by
  rw [lookup_erase_eq] at found
  split at found
  · cases found
  · exact found

theorem length_erase {key : Key} {value : Value} (found : map.lookup key = some value) :
    (AList.erase key map).entries.length + 1 = map.entries.length := by
  have present : key ∈ map.entries.keys :=
    mem_keys.mp (lookup_isSome.mp (by rw [found]; rfl))
  rcases exists_of_kerase present with ⟨_, before, behind, _, whole, erased⟩
  show (map.entries.kerase key).length + 1 = _
  rw [erased, whole, length_append, length_append, length_cons]
  omega

end FiniteMap
end TorrentPlayer.Library
