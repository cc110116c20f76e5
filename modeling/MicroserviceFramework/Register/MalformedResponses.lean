import MicroserviceFramework.Register.CacheFile
import MicroserviceFramework.Register.GetServices

/-!
# Responses that cannot be read

The client drops a response that does not parse, except for the first: that one is parsed straight
into the new cache, and leaves there what was decoded. With a cache, even an empty one,
`getServices` no longer reads the file.
-/

namespace MicroserviceFramework.Register

open Platform

namespace CRegisterClient

/-- The two clients have the same file, and the same services for those who ask. -/
structure SameView (c c' : CRegisterClient) : Prop where
  /-- `getServices` finds them in memory. -/
  memory : services c'.pbServiceMap = services c.pbServiceMap
  /-- Or after it was without connection; `opened` is whether the file can be read. -/
  fallback : ∀ opened, services (GetServices.fallback opened c').pbServiceMap =
    services (GetServices.fallback opened c).pbServiceMap
  all : ∀ opened, services (c'.getAllServiceIf opened).pbClientMap =
    services (c.getAllServiceIf opened).pbClientMap
  file : c'.file = c.file

theorem SameView.refl (c : CRegisterClient) : c.SameView c := ⟨rfl, fun _ => rfl, fun _ => rfl, rfl⟩

/-- Nobody sees a service that was decoded before the parse failed, and none was to be seen in the
file, which is hidden now. -/
structure NothingShown (c : CRegisterClient) (partly : CServiceMap) : Prop where
  partly : services (some partly) = services none
  file : ∀ saved ∈ c.file, services (some saved) = services none

theorem services_loadLocalFileIf (c : CRegisterClient) (opened : Bool) :
    services (c.loadLocalFileIf opened).pbServiceMap =
      if opened then (c.file.map (services ∘ some)).getD (services c.pbServiceMap)
      else services c.pbServiceMap := by
  funext name
  rw [services, registered_loadLocalFileIf]
  cases opened with
  | false => rfl
  | true => cases c.file <;> rfl

/-- A load finds nothing where there is nothing. -/
theorem services_loadLocalFileIf_nothing {c : CRegisterClient}
    (memory : services c.pbServiceMap = services none)
    (file : ∀ saved ∈ c.file, services (some saved) = services none) (opened : Bool) :
    services (c.loadLocalFileIf opened).pbServiceMap = services none := by
  rw [services_loadLocalFileIf]
  cases opened with
  | false => exact memory
  | true =>
    rcases written : c.file with _ | saved
    · exact memory
    · exact file saved written

/-- The first response. -/
theorem sameView_partly_iff {c : CRegisterClient} (first : c.pbServiceMap = none)
    (partly : CServiceMap) :
    c.SameView { c with pbServiceMap := some partly } ↔ c.NothingShown partly := by
  have hidden (opened : Bool) : GetServices.fallback opened { c with pbServiceMap := some partly } =
      { c with pbServiceMap := some partly } := rfl
  have read (opened : Bool) : GetServices.fallback opened c = c.loadLocalFileIf opened := by
    rw [GetServices.fallback, first, Option.isNone_none, if_pos rfl]
  constructor
  · intro same
    have nothing : services (some partly) = services none := by
      have memory := same.memory
      rwa [first] at memory
    refine ⟨nothing, fun saved written => ?_⟩
    have loaded := same.fallback true
    rw [hidden, read, services_loadLocalFileIf, if_pos rfl, Option.mem_def.mp written] at loaded
    exact loaded.symm.trans nothing
  · rintro ⟨nothing, file⟩
    have before := services_loadLocalFileIf_nothing (congrArg services first) file
    refine ⟨?_, fun opened => ?_, fun opened => ?_, rfl⟩
    · rw [first]
      exact nothing
    · rw [hidden, read, before]
      exact nothing
    · refine Eq.trans (services_loadLocalFileIf_nothing ?_ ?_ opened) (before opened).symm
      · exact nothing
      · exact file

/-- A list in a response, of one name or of several, leaves the lists of other names alone. -/
theorem getServiceRes_other (c : CRegisterClient) {map : CServiceMap} {name : String}
    (opened : Bool) (created : c.pbServiceMap.isSome) (one : map.type ≠ .ALL) (other : name ∉ map.serviceMap) :
    registered (c.getServiceRes (true, map) opened).pbServiceMap name =
      registered c.pbServiceMap name := by
  obtain ⟨cache, memory⟩ := Option.isSome_iff_exists.mp created
  unfold getServiceRes
  rw [memory]
  dsimp only
  rw [if_neg one]
  split
  · rw [memory]
  next key list first =>
    have key_mem : key ∈ map.serviceMap :=
      List.mem_map_of_mem (f := Sigma.fst) (List.mem_of_mem_head? first)
    have different : name ≠ key := fun same => other (same ▸ key_mem)
    rw [save_pbServiceMap, registered_insert, Function.update_of_ne different]

/-- Whatever is left of a response that does not parse, and whether the file opens: nobody notices
it exactly if there is a cache, or there is nothing to be seen in what is left and in the file. A
list of one name never touches the others. -/
theorem malformed_ignored_iff (c : CRegisterClient) (partly : CServiceMap) (opened : Bool) :
    (c.SameView (c.getServiceRes (false, partly) opened) ∧
        ∀ map, c.pbServiceMap.isSome → map.type = .ONE → ∀ name, name ∉ map.serviceMap →
          registered (c.getServiceRes (true, map) opened).pbServiceMap name =
            registered c.pbServiceMap name) ↔
      c.pbServiceMap.isSome ∨ c.NothingShown partly := by
  have others : ∀ map : CServiceMap, c.pbServiceMap.isSome → map.type = .ONE → ∀ name,
      name ∉ map.serviceMap → registered (c.getServiceRes (true, map) opened).pbServiceMap name =
        registered c.pbServiceMap name := by
    intro map created one name other
    refine c.getServiceRes_other opened created ?_ other
    rw [one]
    decide
  rw [and_iff_left others]
  rcases memory : c.pbServiceMap with _ | cache
  · have parsed : c.getServiceRes (false, partly) opened =
        { c with pbServiceMap := some partly } := by
      unfold getServiceRes
      rw [memory]
    rw [parsed, sameView_partly_iff memory]
    simp
  · have dropped : c.getServiceRes (false, partly) opened = c := by
      unfold getServiceRes
      rw [memory]
    rw [dropped]
    exact iff_of_true (SameView.refl c) (.inl rfl)

/-- What is left of a response that breaks off after one service. -/
def brokenOff : CServiceMap where
  serviceMap := .insert "dir" [{ name := "dir", ip := "127.0.0.1", port := 20011 }] ∅

theorem broken_response_shown : ¬SameView {} (getServiceRes (false, brokenOff) true {}) := by
  intro same
  exact absurd (congrFun same.memory "dir") (by decide)

end CRegisterClient

end MicroserviceFramework.Register
