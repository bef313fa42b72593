import OpalCpp.Proofs.Server.RouteTables

/-! # Routing does not depend on the order of registration

Of routes that can all be added, the one that a request is dispatched to, with what, and the answer to
a request that matches none are the same for every order of adding them; and a failed `Add` changes
nothing.
-/

namespace OpalCpp.Server

open scoped Bytes
open Bytes (ascii)
open OrderedMap (Ordered)
open Http (HttpRequest HttpResponse)

/-- The arguments of an `Add`. -/
structure RouteSpec where
  method : Bytes
  pattern : Bytes
  handler : RouteHandler
  operation : Bytes

namespace RouteSpec

def addTo (router : Router) (spec : RouteSpec) : Router × Outcome Unit :=
  router.add spec.method spec.pattern spec.handler spec.operation

def addition (spec : RouteSpec) : Addition RouteEntry.segments where
  method := spec.method
  pattern := spec.pattern
  entry segments := { segments, handler := spec.handler, operation := spec.operation }
  carries _ := rfl

end RouteSpec

namespace Router

/-- The routes are added in order; the first failure ends it. -/
def addAll (router : Router) : List RouteSpec → Outcome Router
  | [] => .ok router
  | spec :: specs =>
    match spec.addTo router with
    | (_, .error error) => .error error
    | (next, .ok ()) => addAll next specs

/-- What the calls leave, whether they succeed or not. -/
def after (specs : List RouteSpec) : Router := specs.foldl (fun router spec => (spec.addTo router).1) {}

/-- The routes of the method that match the target. -/
def matchingRoutes (router : Router) (method : Bytes) (target : List Bytes) : List RouteEntry :=
  matching RouteEntry.segments router.routes method target

theorem addTo_eq (router : Router) (spec : RouteSpec) : spec.addTo router =
    let (routes, outcome) :=
      addRoute RouteEntry.segments router.routes spec.addition.method spec.addition.pattern spec.addition.entry
    (⟨routes⟩, outcome) := rfl

theorem addAll_routes (router : Router) (specs : List RouteSpec) :
    addAll router specs = (addRoutes router.routes (specs.map RouteSpec.addition)).map Router.mk := by
  induction specs generalizing router with
  | nil => rfl
  | cons spec specs ih =>
    rw [addAll, List.map_cons, addRoutes, addTo_eq]
    generalize addRoute RouteEntry.segments router.routes spec.addition.method spec.addition.pattern
      spec.addition.entry = result
    obtain ⟨next, outcome⟩ := result
    cases outcome with
    | error error => rfl
    | ok added => exact ih ⟨next⟩

theorem ordered_after (specs : List RouteSpec) : Ordered (after specs).routes := by
  induction specs using List.reverseRecOn with
  | nil => exact List.Pairwise.nil
  | append_singleton specs spec ih =>
    rw [after, List.foldl_append]
    exact ordered_addRoute ih _ _ _

/-- A failed `Add` leaves the router as it was. -/
theorem addTo_of_error {specs : List RouteSpec} {spec : RouteSpec} {error : Error}
    (failed : (spec.addTo (after specs)).2 = .error error) : (spec.addTo (after specs)).1 = after specs :=
  congrArg Router.mk (addRoute_of_error (ordered_after specs) failed)

/-- What is held by a router that all the routes were added to. -/
theorem holds_addAll {specs : List RouteSpec} {router : Router} (added : addAll {} specs = .ok router) :
    Holds router.routes (specs.map RouteSpec.addition) := by
  rw [addAll_routes] at added
  cases built : addRoutes ({} : Router).routes (specs.map RouteSpec.addition) with
  | error error =>
    rw [built] at added
    cases added
  | ok routes =>
    rw [built] at added
    cases added
    exact holds_addRoutes holds_nil built

theorem addAll_perm {specs specs' : List RouteSpec} {router : Router} (perm : specs.Perm specs')
    (added : addAll {} specs = .ok router) : ∃ router', addAll {} specs' = .ok router' := by
  have compatible := (holds_addAll added).compatible.perm (perm.map RouteSpec.addition)
  obtain ⟨routes, built⟩ := exists_addRoutes holds_nil compatible
  refine ⟨⟨routes⟩, ?_⟩
  rw [addAll_routes]
  change (addRoutes [] _).map Router.mk = _
  rw [built]
  rfl

/-- Two orders of adding the same routes dispatch alike. -/
theorem dispatch_perm {specs specs' : List RouteSpec} {router router' : Router} (perm : specs.Perm specs')
    (added : addAll {} specs = .ok router) (added' : addAll {} specs' = .ok router') (request : HttpRequest) :
    router.dispatch request = router'.dispatch request := by
  have holds := holds_addAll added
  have holds' := holds_addAll added'
  rw [dispatch, dispatch]
  cases normalizedTarget request with
  | error error => rfl
  | ok target =>
    dsimp only
    rw [holds.findBest_perm holds' (perm.map _), holds.missed_perm holds' (perm.map _)]

/-- A request of a method that has routes for its target is dispatched to the one that ranks above the
others, with its labels and the parameters of the query. -/
theorem dispatch_of_matching {specs : List RouteSpec} {router : Router} (added : addAll {} specs = .ok router)
    {request : HttpRequest} {target : Http.RequestTarget} (normalized : normalizedTarget request = .ok target)
    (some_ : matchingRoutes router request.method target.pathSegments ≠ []) :
    ∃ best context, router.dispatch request = .ok (best, context) ∧
      TopRanked RouteEntry.segments (matchingRoutes router request.method target.pathSegments) best ∧
      matchSegments best.segments target.pathSegments = some context.labels ∧
      context.queryParams = target.queryParams ∧ context.request = some request := by
  have holds := holds_addAll added
  cases found : findBest RouteEntry.segments router.routes request.method target.pathSegments with
  | none => exact absurd (findBest_eq_none.mp found) some_
  | some best =>
    have top := holds.findBest_eq_some.mp found
    have matched : (matchSegments best.segments target.pathSegments).isSome = true := (List.mem_filter.mp top.1).2
    obtain ⟨labels, captured⟩ := Option.isSome_iff_exists.mp matched
    refine ⟨best, ⟨labels, target.queryParams, some request⟩, ?_, top, captured, rfl, rfl⟩
    rw [dispatch, normalized]
    dsimp only
    rw [found]
    dsimp only
    rw [captured]
    rfl

/-- Routing does not depend on the order of registration, the selected route is the only one that ranks
above every other that matches, and a failed `Add` changes no answer. -/
theorem route_order {specs : List RouteSpec} {router : Router} (added : addAll {} specs = .ok router) :
    (∀ specs', specs.Perm specs' → ∃ router', addAll {} specs' = .ok router' ∧
      ∀ request, router'.dispatch request = router.dispatch request ∧ router'.route request = router.route request) ∧
    (∀ request target, normalizedTarget request = .ok target →
      if matchingRoutes router request.method target.pathSegments = [] then
        ∃ response, router.dispatch request = .error response
      else ∃ best context, router.dispatch request = .ok (best, context) ∧
        matchSegments best.segments target.pathSegments = some context.labels ∧
        TopRanked RouteEntry.segments (matchingRoutes router request.method target.pathSegments) best ∧
        ∀ other, TopRanked RouteEntry.segments (matchingRoutes router request.method target.pathSegments) other →
          other = best) ∧
    ∀ (calls : List RouteSpec) (spec : RouteSpec) (error : Error), (spec.addTo (after calls)).2 = .error error →
      ∀ request, (spec.addTo (after calls)).1.dispatch request = (after calls).dispatch request ∧
        (spec.addTo (after calls)).1.route request = (after calls).route request := by
  refine ⟨?_, ?_, ?_⟩
  · intro specs' perm
    obtain ⟨router', added'⟩ := addAll_perm perm added
    refine ⟨router', added', fun request => ?_⟩
    have same := dispatch_perm perm added added' request
    exact ⟨same.symm, by rw [route, route, same]⟩
  · intro request target normalized
    split_ifs with none_
    · refine ⟨missed RouteEntry.segments router.routes request.method target.pathSegments, ?_⟩
      rw [dispatch, normalized]
      dsimp only
      rw [findBest_eq_none.mpr none_]
    · obtain ⟨best, context, dispatched, top, captured, _⟩ := dispatch_of_matching added normalized none_
      exact ⟨best, context, dispatched, captured, top, fun other top' => top.unique top'⟩
  · intro calls spec error failed request
    rw [addTo_of_error failed]
    exact ⟨rfl, rfl⟩

/-- A literal, a label and a greedy label, in two orders. -/
theorem route_order_three : ∃ handler : RouteHandler, ∃ first second third : RouteSpec, ∃ router router' : Router,
    first = ⟨ascii "GET", ascii "/a/\x7bx\x7d", handler, []⟩ ∧ second = ⟨ascii "GET", ascii "/a/b", handler, []⟩ ∧
      third = ⟨ascii "GET", ascii "/\x7bp+\x7d", handler, []⟩ ∧ addAll {} [first, second, third] = .ok router ∧
      addAll {} [third, first, second] = .ok router' ∧
      ∀ request, router'.dispatch request = router.dispatch request ∧ router'.route request = router.route request := by
  have accepted : (addAll {} [⟨ascii "GET", ascii "/a/\x7bx\x7d", fun _ _ => {}, []⟩,
      ⟨ascii "GET", ascii "/a/b", fun _ _ => {}, []⟩,
        ⟨ascii "GET", ascii "/\x7bp+\x7d", fun _ _ => {}, []⟩]).toOption.isSome =
      true := by decide +kernel
  cases added : addAll {} [⟨ascii "GET", ascii "/a/\x7bx\x7d", fun _ _ => {}, []⟩,
      ⟨ascii "GET", ascii "/a/b", fun _ _ => {}, []⟩, ⟨ascii "GET", ascii "/\x7bp+\x7d", fun _ _ => {}, []⟩] with
  | error error =>
    rw [added] at accepted
    cases accepted
  | ok router =>
    obtain ⟨router', added', same⟩ := (route_order added).1 _ (@List.perm_append_comm _ [_, _] [_])
    exact ⟨_, _, _, _, router, router', rfl, rfl, rfl, added, added', same⟩

end Router

end OpalCpp.Server
