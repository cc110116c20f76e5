import MicroserviceFramework.Register.CRegisterClient
import MicroserviceFramework.Register.Registry

/-!
# What a response makes of the services in memory

A response has all services, or those of at most one name. In memory it replaces what it has, and
whatever changes there is written to the file.
-/

namespace MicroserviceFramework.Register

open Platform

/-- The lists after a response: all of them are replaced, or those that it has. -/
def taken (lists : String → Option CServiceList) (map : CServiceMap) :
    String → Option CServiceList :=
  if map.type = .ALL then registered (some map)
  else fun name => (registered (some map) name).or (lists name)

/-- The list of a map that has only one. -/
theorem registered_singleton {map : CServiceMap} {name : String} {list : CServiceList}
    (one : map.serviceMap.entries = [⟨name, list⟩]) (other : String) :
    registered (some map) other = if other = name then some list else none := by
  rw [registered, Option.getD_some, AList.lookup, one]
  split
  next same => rw [same, List.dlookup_cons_eq]
  next different => rw [List.dlookup_cons_ne _ _ different, List.dlookup_nil]

theorem taken_empty {lists : String → Option CServiceList} {map : CServiceMap}
    (one : map.type ≠ .ALL) (empty : map.serviceMap.entries = []) : taken lists map = lists := by
  funext name
  have unknown : registered (some map) name = none := by
    rw [registered, Option.getD_some, AList.lookup, empty, List.dlookup_nil]
  rw [taken, if_neg one, unknown, Option.none_or]

theorem taken_singleton {lists : String → Option CServiceList} {map : CServiceMap} {name : String}
    {list : CServiceList} (one : map.type ≠ .ALL)
    (single : map.serviceMap.entries = [⟨name, list⟩]) :
    taken lists map = Function.update lists name (some list) := by
  funext other
  rw [taken, if_neg one, registered_singleton single]
  by_cases same : other = name
  · rw [same, if_pos rfl, Function.update_self, Option.some_or]
  · rw [if_neg same, Function.update_of_ne same, Option.none_or]

namespace CRegisterClient

@[simp] theorem save_pbServiceMap (c : CRegisterClient) (opened : Bool) :
    (c.save opened).pbServiceMap = c.pbServiceMap := by
  unfold save
  split <;> rfl

theorem loadLocalFileIf_isSome (c : CRegisterClient) (opened : Bool) :
    (c.loadLocalFileIf opened).pbServiceMap.isSome := by
  unfold loadLocalFileIf
  split
  · unfold loadLocalFile
    split <;> rfl
  · rfl

/-- After any response, also one that does not parse, there is a cache. -/
theorem getServiceRes_isSome (c : CRegisterClient) (parsed : Bool × CServiceMap) (opened : Bool) :
    (c.getServiceRes parsed opened).pbServiceMap.isSome := by
  unfold getServiceRes
  grind [save_pbServiceMap]

/-- A response changes nothing, or is written to the file as well. -/
theorem getServiceRes_cases (c : CRegisterClient) (map : CServiceMap) (opened : Bool) :
    c.getServiceRes (true, map) opened = c ∨
      ∃ map', c.getServiceRes (true, map) opened =
        { c with pbServiceMap := some map' }.save opened := by
  unfold getServiceRes
  rcases c.pbServiceMap with _ | cache
  · exact .inr ⟨map, rfl⟩
  · dsimp only
    split
    · exact .inr ⟨map, rfl⟩
    · split
      · exact .inl rfl
      · exact .inr ⟨_, rfl⟩

/-- Whatever becomes of the file, the response is taken over in memory. -/
theorem registered_getServiceRes (c : CRegisterClient) {map : CServiceMap}
    (proper : map.type = .ALL ∨ map.serviceMap.entries.length ≤ 1) (opened : Bool) :
    registered (c.getServiceRes (true, map) opened).pbServiceMap =
      taken (registered c.pbServiceMap) map := by
  unfold getServiceRes
  rcases memory : c.pbServiceMap with _ | cache
  · -- the first response is all there is
    dsimp only
    rw [save_pbServiceMap]
    funext name
    have nothing : registered none name = none := AList.lookup_empty name
    unfold taken
    split
    · rfl
    · dsimp only
      rw [nothing, Option.or_none]
  · dsimp only
    by_cases all : map.type = .ALL
    · rw [if_pos all, save_pbServiceMap, taken, if_pos all]
    · rw [if_neg all]
      have short := proper.resolve_left all
      rcases entries : map.serviceMap.entries with _ | ⟨⟨name, list⟩, rest⟩
      · rw [List.head?_nil, taken_empty all entries, memory]
      · obtain rfl : rest = [] := by
          rw [entries, List.length_cons] at short
          exact List.length_eq_zero_iff.mp (Nat.le_zero.mp (Nat.le_of_succ_le_succ short))
        rw [List.head?_cons, taken_singleton all entries]
        dsimp only
        rw [save_pbServiceMap, registered_insert]

end CRegisterClient

end MicroserviceFramework.Register
