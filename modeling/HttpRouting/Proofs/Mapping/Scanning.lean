import Mathlib.Data.List.Induction
import Mathlib.Data.List.Nodup
import HttpRouting.Proofs.Mapping.Detection

/-!
Scanning all beans.  The beans are gone through in the order of their names, and what is found is
registered in that order, so it does not matter in which order the beans were added; and since all that is
found is bound after a scan that succeeds, a second scan has nothing to do.
-/

set_option autoImplicit false
set_option relaxedAutoImplicit false

namespace HttpRouting

namespace BeanRegistry

/-- The registry after a bean was added, if its name was not taken. -/
def add (registry : BeanRegistry) (bean : String × Controller) : BeanRegistry :=
  match registry.register bean.1 bean.2 with
  | .ok next => next
  | .error _ => registry

/-- The registry after beans were added one after the other. -/
def ofList (beans : List (String × Controller)) : BeanRegistry :=
  beans.foldl add empty

/-- No name is taken twice. -/
def Distinct (registry : BeanRegistry) : Prop :=
  (registry.beans.map Prod.fst).Nodup

section Beans

variable {registry registry' : BeanRegistry} {name : String} {controller : Controller}

theorem lookup_eq_none_iff :
    registry.beans.lookup name = none ↔ name ∉ registry.beans.map Prod.fst := by
  rw [List.lookup_eq_none_iff]
  constructor
  · intro free member
    obtain ⟨bean, listed, rfl⟩ := List.mem_map.mp member
    simpa using free bean listed
  · intro free bean listed
    rw [bne_iff_ne]
    rintro rfl
    exact free (List.mem_map_of_mem listed)

theorem Distinct.add (distinct : registry.Distinct) (bean : String × Controller) :
    (registry.add bean).Distinct := by
  unfold BeanRegistry.add register
  cases taken : registry.beans.lookup bean.1 with
  | some _ => exact distinct
  | none =>
    have free := lookup_eq_none_iff.mp taken
    simp only [Option.isSome_none, Bool.false_eq_true, if_false, Distinct, List.map_append]
    refine List.nodup_append.mpr ⟨distinct, List.nodup_singleton _, ?_⟩
    rintro name member _ last rfl
    exact free (List.mem_singleton.mp last ▸ member)

theorem distinct_ofList (beans : List (String × Controller)) : (ofList beans).Distinct := by
  induction beans using List.reverseRec with
  | nil => exact List.nodup_nil
  | append_singleton beans bean ih =>
    rw [ofList, List.foldl_append]
    exact ih.add bean

theorem Distinct.lookup_eq_some_iff (distinct : registry.Distinct) :
    registry.beans.lookup name = some controller ↔ (name, controller) ∈ registry.beans := by
  rw [List.lookup_eq_some_iff]
  constructor
  · rintro ⟨before, behind, cut, -⟩
    simp [cut]
  · intro member
    obtain ⟨before, behind, cut⟩ := List.append_of_mem member
    refine ⟨before, behind, cut, fun bean listed => bne_iff_ne.mpr ?_⟩
    rintro rfl
    rw [Distinct, cut, List.map_append, List.nodup_append] at distinct
    exact distinct.2.2 bean.1 (List.mem_map_of_mem listed) bean.1 (by simp) rfl

theorem pairwise_names (registry : BeanRegistry) :
    registry.names.Pairwise fun a b => (compare a b).isLE = true := by
  refine List.pairwise_mergeSort (fun a b c before behind => ?_) (fun a b => ?_) _
  · exact Std.TransCmp.isLE_trans before behind
  · have swapped : compare b a = (compare a b).swap := Std.OrientedCmp.eq_swap
    rw [swapped]
    cases compare a b <;> rfl

/-- The names are the only list of these names in order. -/
theorem names_eq {ordered : List String} (perm : (registry.beans.map Prod.fst).Perm ordered)
    (sorted : ordered.Pairwise fun a b => (compare a b).isLE = true) : registry.names = ordered := by
  refine List.Perm.eq_of_pairwise ?_ (pairwise_names registry) sorted ((List.mergeSort_perm _ _).trans perm)
  intro a b _ _ before behind
  exact Std.LawfulEqOrd.eq_of_compare (Std.OrientedCmp.isLE_antisymm before behind)

/-- Registries with the same beans answer alike. -/
theorem Distinct.resolve_eq (distinct : registry.Distinct) (distinct' : registry'.Distinct)
    (same : ∀ bean, bean ∈ registry.beans ↔ bean ∈ registry'.beans) (name : String) :
    registry.resolve name = registry'.resolve name := by
  have found : registry.beans.lookup name = registry'.beans.lookup name := by
    ext controller
    rw [distinct.lookup_eq_some_iff, distinct'.lookup_eq_some_iff, same]
  rw [resolve, resolve, found]

theorem Distinct.names_eq (distinct : registry.Distinct) (distinct' : registry'.Distinct)
    (same : ∀ bean, bean ∈ registry.beans ↔ bean ∈ registry'.beans) : registry.names = registry'.names := by
  refine BeanRegistry.names_eq ?_ (pairwise_names registry')
  have perm : (registry.beans.map Prod.fst).Perm (registry'.beans.map Prod.fst) := by
    rw [List.perm_ext_iff_of_nodup distinct distinct']
    simp [same]
  exact perm.trans (List.mergeSort_perm _ _).symm

end Beans

end BeanRegistry

namespace MethodMapping

variable {κ : Type} [BEq κ]

/-- What a scan finds under the name of a bean, to be registered. -/
def scan (strategy : MappingStrategy κ) (beans : BeanRegistry) (name : String) :
    Except MappingError (List (κ × HandlerMethod)) :=
  if scopedTarget.isPrefixOf name.toList then .ok []
  else
    match beans.resolve name with
    | .error error => .error (.bean error)
    | .ok controller =>
      if strategy.isHandler controller then
        (keyedMethods strategy controller controller.methods).map fun methods =>
          methods.map fun entry => (entry.1, handlerMethod (.named name) controller.typeName entry.2)
      else .ok []

section Register

variable {m m' : MethodMapping κ} {key : κ} {handler : HandlerMethod}
  {entries others : List (κ × HandlerMethod)}

theorem strategy_of_register (registered : m.register key handler = .ok m') :
    m'.strategy = m.strategy := by
  obtain ⟨registry, -, rfl⟩ := register_eq_ok_iff.mp registered
  rfl

theorem strategy_of_registerEach (registered : m.registerEach entries = .ok m') :
    m'.strategy = m.strategy := by
  induction entries generalizing m with
  | nil =>
    cases registered
    rfl
  | cons entry entries ih =>
    obtain ⟨next, first, later⟩ := registerEach_cons_eq_ok_iff.mp registered
    exact (ih later).trans (strategy_of_register first)

theorem registerEach_append_eq_ok_iff : m.registerEach (entries ++ others) = .ok m' ↔
    ∃ next, m.registerEach entries = .ok next ∧ next.registerEach others = .ok m' := by
  rw [registerEach, List.foldlM_append]
  exact Outcome.bind_eq_ok_iff

theorem registerAll_eq_ok_iff :
    m.registerAll entries = (m', .ok ()) ↔ m.registerEach entries = .ok m' := by
  rcases registerAll_cases m entries with ⟨last, registered, all⟩ |
    ⟨before, key, handler, behind, last, error, rfl, registered, refused, all⟩
  · simp [registered, all]
  · have failed : m.registerEach (before ++ (key, handler) :: behind) ≠ .ok m' := by
      intro done
      obtain ⟨next, first, later⟩ := registerEach_append_eq_ok_iff.mp done
      obtain ⟨_, taken, -⟩ := registerEach_cons_eq_ok_iff.mp later
      cases registered.symm.trans first
      cases refused.symm.trans taken
    simp [all, failed]

/-- What is bound already is registered again with no effect. -/
theorem registerEach_of_bound (bound : ∀ entry ∈ entries,
      ∃ r, m.registry.registration? entry.1 = some r ∧ (r.handler == entry.2) = true) :
    m.registerEach entries = .ok m := by
  induction entries with
  | nil => rfl
  | cons entry entries ih =>
    obtain ⟨⟨r, found, same⟩, later⟩ := List.forall_mem_cons.mp bound
    refine registerEach_cons_eq_ok_iff.mpr ⟨m, ?_, ih later⟩
    exact register_eq_ok_iff.mpr ⟨_, Registry.register_of_equal found same, rfl⟩

theorem registerEach_again [EquivBEq κ] (registered : m.registerEach entries = .ok m') :
    m'.registerEach entries = .ok m' :=
  registerEach_of_bound fun _ listed => exists_registration?_of_registerEach registered listed

end Register

section Scan

variable {m m' : MethodMapping κ} {beans beans' : BeanRegistry} {names : List String} {name : String}

/-- One bean is scanned, then the others. -/
theorem detectBeans_cons (m : MethodMapping κ) (beans : BeanRegistry) (name : String)
    (names : List String) : m.detectBeans beans (name :: names) =
      match scan m.strategy beans name with
      | .error error => (m, .error error)
      | .ok entries =>
        match m.registerAll entries with
        | (m, .error error) => (m, .error error)
        | (m, .ok ()) => m.detectBeans beans names := by
  rw [detectBeans, scan]
  split
  · rfl
  · cases beans.resolve name with
    | error error => rfl
    | ok controller =>
      dsimp only
      split
      · rw [detectIn]
        cases keyedMethods m.strategy controller controller.methods with
        | error error => rfl
        | ok methods =>
          simp only [Except.map]
          rcases m.registerAll _ with ⟨m, _ | _⟩ <;> rfl
      · rfl

theorem detectBeans_cons_eq_ok_iff : m.detectBeans beans (name :: names) = (m', .ok ()) ↔
    ∃ entries next, scan m.strategy beans name = .ok entries ∧ m.registerEach entries = .ok next ∧
      next.detectBeans beans names = (m', .ok ()) := by
  rw [detectBeans_cons]
  constructor
  · intro done
    cases scanned : scan m.strategy beans name with
    | error error =>
      rw [scanned] at done
      cases done
    | ok entries =>
      simp only [scanned] at done
      rcases all : m.registerAll entries with ⟨next, _ | _⟩
      · rw [all] at done
        cases done
      · rw [all] at done
        exact ⟨entries, next, rfl, registerAll_eq_ok_iff.mp all, done⟩
  · rintro ⟨entries, next, scanned, registered, later⟩
    simp only [scanned, registerAll_eq_ok_iff.mpr registered, later]

/-- A scan succeeds when all beans can be scanned and all that is found can be registered in its order. -/
theorem detectBeans_eq_ok_iff : m.detectBeans beans names = (m', .ok ()) ↔
    ∃ found, names.mapM (scan m.strategy beans) = .ok found ∧
      m.registerEach found.flatten = .ok m' := by
  induction names generalizing m with
  | nil =>
    constructor
    · intro done
      cases done
      exact ⟨[], rfl, rfl⟩
    · rintro ⟨found, none, registered⟩
      cases none
      cases registered
      rfl
  | cons name names ih =>
    simp only [detectBeans_cons_eq_ok_iff, Outcome.mapM_cons_eq_ok_iff, ih]
    constructor
    · rintro ⟨entries, next, scanned, first, found, rest, later⟩
      rw [strategy_of_registerEach first] at rest
      exact ⟨entries :: found, ⟨entries, found, scanned, rest, rfl⟩,
        registerEach_append_eq_ok_iff.mpr ⟨next, first, later⟩⟩
    · rintro ⟨_, ⟨entries, found, scanned, rest, rfl⟩, registered⟩
      obtain ⟨next, first, later⟩ := registerEach_append_eq_ok_iff.mp registered
      rw [← strategy_of_registerEach first] at rest
      exact ⟨entries, next, scanned, first, found, rest, later⟩

/-- A scan sees no more of the beans than how their names are resolved. -/
theorem detectBeans_congr (same : ∀ name, beans.resolve name = beans'.resolve name) :
    m.detectBeans beans names = m.detectBeans beans' names := by
  induction names generalizing m with
  | nil => rfl
  | cons name names ih =>
    have scanned : scan m.strategy beans name = scan m.strategy beans' name := by
      rw [scan, same, scan]
    simp only [detectBeans_cons, scanned, ih]

/-- A scan that succeeds can be repeated: it succeeds again and changes nothing, neither the table nor the
paths, names and policies.  And the order in which beans were added has no influence: two registries with
the same controllers under the same names are scanned with the same outcome, a mapping in the same state
and the same error, if there is one. -/
theorem detectAll_again_and_reordered [EquivBEq κ] (m : MethodMapping κ) :
    (∀ beans m', m.detectAll beans = (m', .ok ()) → m'.detectAll beans = (m', .ok ())) ∧
    ∀ added added' : List (String × Controller),
      (∀ bean, bean ∈ (BeanRegistry.ofList added).beans ↔ bean ∈ (BeanRegistry.ofList added').beans) →
        m.detectAll (BeanRegistry.ofList added) = m.detectAll (BeanRegistry.ofList added') := by
  constructor
  · intro beans m' done
    obtain ⟨found, scanned, registered⟩ := detectBeans_eq_ok_iff.mp done
    rw [← strategy_of_registerEach registered] at scanned
    exact detectBeans_eq_ok_iff.mpr ⟨found, scanned, registerEach_again registered⟩
  · intro added added' same
    have distinct := BeanRegistry.distinct_ofList added
    have distinct' := BeanRegistry.distinct_ofList added'
    rw [detectAll, detectAll, distinct.names_eq distinct' same]
    exact detectBeans_congr (distinct.resolve_eq distinct' same)

/-- Two controllers under two names, added in either order and scanned twice. -/
theorem users_and_items_scanned_twice :
    let method := fun path => ControllerMethod.mk "list" (some (RouteSpec.empty.withPath path)) none
    let users := Controller.mk (.application 0) "Users" none none [method "/users", method "/people"]
    let items := Controller.mk (.application 1) "Items" none none [method "/items"]
    let m := RouteStrategy.mapping .standard
    let beans := BeanRegistry.ofList [("users", users), ("items", items)]
    ∃ m', m.detectAll beans = (m', .ok ()) ∧ m'.detectAll beans = (m', .ok ()) ∧
      m.detectAll (.ofList [("items", items), ("users", users)]) = (m', .ok ()) ∧
      m'.registry.registrations.length = 3 := by
  intro method users items m beans
  have names : beans.names = ["items", "users"] :=
    BeanRegistry.names_eq (by decide) (by decide)
  obtain ⟨again, reordered⟩ := detectAll_again_and_reordered m
  have scanned : m.detectAll beans = m.detectBeans beans ["items", "users"] := by
    rw [detectAll, names]
  have done : m.detectAll beans = ((m.detectBeans beans ["items", "users"]).1, .ok ()) := by
    rw [scanned]
    rfl
  refine ⟨_, done, again _ _ done, ?_, by rfl⟩
  rw [← done]
  refine (reordered _ _ fun bean => ?_).symm
  exact List.Perm.mem_iff (List.Perm.swap _ _ _)

end Scan

end MethodMapping

end HttpRouting
