import OpalCpp.Model.Server.Router
import OpalCpp.Proofs.Server.RouteOrder
import OpalCpp.Proofs.Server.RouteTables

/-! # The two routers make the same decision

The same additions to a router and to a router of upgrades leave two images of one table, whose slots
keep the addition they come from. What an image finds is the image of what the table finds, and a miss
is answered from the patterns alone; so the gate refuses what the router refuses, with its response, and
admits what the router dispatches.
-/

namespace OpalCpp.Server

open scoped Bytes
open Bytes (ascii)
open OrderedMap (tryEmplace find? modify mapValues Ordered)
open Http (HttpRequest HttpResponse Headers headerNameEquals)

/-! ## The list of the allowed methods

A miss is answered with the methods that have a route for the target, in ascending order, or with 404
where there is none. A method without a name is never listed.
-/

/-- A name is put behind the others, and a comma before it if there are others. -/
def appendName (allow name : Bytes) : Bytes := (if allow = [] then allow else allow ++ ascii ", ") ++ name

theorem foldl_appendName {allow : Bytes} (some_ : allow ≠ []) (names : List Bytes) :
    names.foldl appendName allow = (ascii ", ").intercalate (allow :: names) := by
  induction names generalizing allow with
  | nil => rw [List.foldl_nil, List.intercalate_singleton]
  | cons name names ih =>
    have longer : appendName allow name = allow ++ ascii ", " ++ name := by rw [appendName, if_neg some_]
    have some' : appendName allow name ≠ [] := by
      rw [longer, List.append_assoc]
      exact List.append_ne_nil_of_left_ne_nil some_ _
    rw [List.foldl_cons, ih some', longer, List.intercalate_cons_cons]
    cases names with
    | nil => simp
    | cons next rest => simp [List.append_assoc]

/-- A name that is empty comes first in ascending order, and leaves no trace. -/
theorem foldl_ascending {names : List Bytes} (ascending : names.Pairwise (· < ·)) :
    names.foldl appendName [] = (ascii ", ").intercalate (names.filter (· ≠ [])) := by
  have named {names : List Bytes} (all : ∀ name ∈ names, name ≠ []) :
      names.foldl appendName [] = (ascii ", ").intercalate names := by
    cases names with
    | nil => rfl
    | cons name names => exact foldl_appendName (all name List.mem_cons_self) names
  cases names with
  | nil => rfl
  | cons name names =>
    obtain ⟨least, _⟩ := List.pairwise_cons.mp ascending
    have later (other : Bytes) (member : other ∈ names) : other ≠ [] := by
      rintro rfl
      exact absurd (least [] member) (List.not_lt_nil name)
    have kept : names.filter (· ≠ []) = names :=
      List.filter_eq_self.mpr fun other member => decide_eq_true (later other member)
    cases name with
    | nil =>
      rw [List.foldl_cons, List.filter_cons_of_neg (by simp), kept]
      exact named later
    | cons byte bytes =>
      rw [List.filter_cons_of_pos (by simp), kept]
      apply named
      intro other member
      obtain rfl | tail := List.mem_cons.mp member
      · exact List.cons_ne_nil _ _
      · exact later other tail

theorem intercalate_eq_nil {names : List Bytes} (named : ∀ name ∈ names, name ≠ []) :
    (ascii ", ").intercalate names = [] ↔ names = [] := by
  constructor
  · intro empty
    cases names with
    | nil => rfl
    | cons name names =>
      exfalso
      apply named name List.mem_cons_self
      cases names with
      | nil => rwa [List.intercalate_singleton] at empty
      | cons next rest =>
        rw [List.intercalate_cons_cons, List.append_assoc] at empty
        exact (List.append_eq_nil_iff.mp empty).1
  · rintro rfl
    rfl

section Tables

variable {Entry : Type*} {segments : Entry → List Segment} {routes : Routes Entry} {method : Bytes} {target : List Bytes}

/-- The other methods with a name that have a route for the target. -/
def allowedMethods (segments : Entry → List Segment) (routes : Routes Entry) (method : Bytes) (target : List Bytes) :
    List Bytes :=
  (routes.map Prod.fst).filter fun other => other ≠ [] ∧ other ≠ method ∧ matching segments routes other target ≠ []

theorem mem_allowedMethods {other : Bytes} : other ∈ allowedMethods segments routes method target ↔
    other ≠ [] ∧ other ≠ method ∧ ∃ entry ∈ bucket routes other, Matches segments target entry = true := by
  have some_ :
      matching segments routes other target ≠ [] ↔ ∃ entry ∈ bucket routes other, Matches segments target entry = true := by
    rw [matching, Ne, List.filter_eq_nil_iff]
    simp
  rw [allowedMethods, List.mem_filter, decide_eq_true_eq, some_]
  constructor
  · exact And.right
  · rintro ⟨named, differs, entry, member, matched⟩
    refine ⟨?_, named, differs, entry, member, matched⟩
    rw [← OrderedMap.find?_isSome]
    by_contra absent
    rw [bucket, Option.not_isSome_iff_eq_none.mp absent] at member
    cases member

theorem allowedMethods_ascending (ordered : Ordered routes) :
    (allowedMethods segments routes method target).Pairwise (· < ·) :=
  ordered.filter _

theorem allowed_eq (ordered : Ordered routes) :
    allowed segments routes method target = (ascii ", ").intercalate (allowedMethods segments routes method target) := by
  have names : allowed segments routes method target = ((routes.map Prod.fst).filter fun other =>
      other ≠ method ∧ matching segments routes other target ≠ []).foldl appendName [] := by
    rw [allowed, List.foldl_filter, List.foldl_map]
    apply List.foldl_ext
    intro allow entry member
    have found : bucket routes entry.1 = entry.2 := by rw [bucket, OrderedMap.find?_of_mem ordered member, Option.getD_some]
    by_cases same : entry.1 = method
    · simp [same]
    · cases any : entry.2.any (Matches segments target) with
      | false =>
        have none_ : matching segments routes entry.1 target = [] := by
          rw [matching, found, List.filter_eq_nil_iff]
          exact fun route inBucket => by simpa using List.any_eq_false.mp any route inBucket
        change entry.2.any (fun route => (matchSegments (segments route) target).isSome) = false at any
        simp [same, none_, any]
      | true =>
        have some_ : matching segments routes entry.1 target ≠ [] := by
          rw [matching, found, Ne, List.filter_eq_nil_iff]
          obtain ⟨route, inBucket, matched⟩ := List.any_eq_true.mp any
          exact fun none_ => none_ route inBucket matched
        change entry.2.any (fun route => (matchSegments (segments route) target).isSome) = true at any
        simp [same, some_, any, appendName]
  rw [names, foldl_ascending (ordered.filter _), List.filter_filter, allowedMethods]
  congr 2
  funext other
  simp only [Bool.decide_and]

/-- A miss where the other methods with a name have no route. -/
theorem missed_of_none (ordered : Ordered routes) (none_ : allowedMethods segments routes method target = []) :
    missed segments routes method target =
      makeErrorResponse 404 (ascii "NotFound") (ascii "no route matches the request") := by
  rw [missed, allowed_eq ordered, none_]
  rfl

/-- A miss where another method has one. -/
theorem missed_of_some (ordered : Ordered routes) (some_ : allowedMethods segments routes method target ≠ []) :
    missed segments routes method target =
      let response := makeErrorResponse 405 (ascii "MethodNotAllowed") (ascii "method not allowed")
      let allow := (ascii ", ").intercalate (allowedMethods segments routes method target)
      { response with headers := response.headers.set (ascii "allow") allow } := by
  have named : ∀ name ∈ allowedMethods segments routes method target, name ≠ [] :=
    fun name member => (mem_allowedMethods.mp member).1
  rw [missed, allowed_eq ordered]
  exact if_pos (mt (intercalate_eq_nil named).mp some_)

end Tables

/-! ## Images of a table -/

section Images

variable {Slot Entry : Type*} {slotSegments : Slot → List Segment} {segments : Entry → List Segment} {image : Slot → Entry}

/-- The table with the image of each slot. -/
def imageOf (image : Slot → Entry) (table : Routes Slot) : Routes Entry := mapValues (List.map image) table

theorem ordered_imageOf {table : Routes Slot} : Ordered (imageOf image table) ↔ Ordered table := by
  rw [Ordered, imageOf, OrderedMap.keys_mapValues, Ordered]

theorem bucket_imageOf (table : Routes Slot) (method : Bytes) :
    bucket (imageOf image table) method = (bucket table method).map image := by
  rw [bucket, imageOf, OrderedMap.find?_mapValues, bucket]
  cases find? method table with
  | none => rfl
  | some slots => rfl

variable (keeps : ∀ slot, segments (image slot) = slotSegments slot)
include keeps

/-- An addition to the image is the image of the addition. -/
theorem addRoute_imageOf (table : Routes Slot) (method pattern : Bytes) (slot : List Segment → Slot) :
    addRoute segments (imageOf image table) method pattern (fun parsed => image (slot parsed)) =
      ((addRoute slotSegments table method pattern slot).map (imageOf image) id) := by
  rw [addRoute, addRoute]
  cases parsePattern pattern with
  | error error => rfl
  | ok parsed =>
    dsimp only
    have emplaced : tryEmplace method [] (imageOf image table) = imageOf image (tryEmplace method [] table) :=
      OrderedMap.tryEmplace_mapValues (List.map image) method [] table
    have conflict : (((find? method (imageOf image (tryEmplace method [] table))).getD []).any
          fun existing => sameShape (segments existing) parsed) =
        (((find? method (tryEmplace method [] table)).getD []).any fun existing =>
          sameShape (slotSegments existing) parsed) := by
      rw [← bucket, bucket_imageOf, List.any_map, ← bucket]
      simp only [Function.comp_def, keeps]
    rw [emplaced, conflict]
    split_ifs with taken
    · rfl
    · have added : modify method (· ++ [image (slot parsed)]) (imageOf image (tryEmplace method [] table)) =
          imageOf image (modify method (· ++ [slot parsed]) (tryEmplace method [] table)) := by
        apply OrderedMap.modify_mapValues
        intro slots
        rw [List.map_append, List.map_singleton]
      rw [added]
      rfl

theorem findBest_imageOf (table : Routes Slot) (method : Bytes) (target : List Bytes) :
    findBest segments (imageOf image table) method target = (findBest slotSegments table method target).map image := by
  rw [findBest_eq, bucket_imageOf, Selection.select_map, findBest_eq]
  simp only [Matches, keeps]
  rfl

theorem missed_imageOf (table : Routes Slot) (method : Bytes) (target : List Bytes) :
    missed segments (imageOf image table) method target = missed slotSegments table method target := by
  have allow : allowed segments (imageOf image table) method target = allowed slotSegments table method target := by
    rw [allowed, imageOf, mapValues, List.foldl_map, allowed]
    simp only [List.any_map, Function.comp_def, keeps]
  rw [missed, missed, allow]

end Images

/-! ## The additions -/

variable {Serve ServeSession : Type*}

/-- The arguments of an addition to either router, with the callbacks of both seams. -/
structure Mount (Serve ServeSession : Type*) extends RouteSpec where
  serve : Option Serve
  serveSession : Option ServeSession

namespace Mount

/-- The route of upgrades that it makes on a seam. -/
def streamRoute (shared : Bool) (mount : Mount Serve ServeSession) (segments : List Segment) :
    StreamRoute Serve ServeSession :=
  if shared then { segments, serveSession := mount.serveSession, operation := mount.operation }
  else { segments, serve := mount.serve, operation := mount.operation }

/-- `AddSession` on the shared seam, and `Add` on the borrowed one. -/
def addToStreams (shared : Bool) (streams : WebSocketRouter Serve ServeSession) (mount : Mount Serve ServeSession) :
    WebSocketRouter Serve ServeSession × Outcome Unit :=
  if shared then streams.addSession mount.method mount.pattern mount.serveSession mount.operation
  else streams.add mount.method mount.pattern mount.serve mount.operation

def addToRouter (router : Router) (mount : Mount Serve ServeSession) : Router × Outcome Unit :=
  mount.toRouteSpec.addTo router

end Mount

/-- Every addition is tried, in order; the outcomes are in that order too. -/
def addEach {State Item : Type*} (add : State → Item → State × Outcome Unit) (state : State) :
    List Item → State × List (Outcome Unit)
  | [] => (state, [])
  | item :: items =>
    ((addEach add (add state item).1 items).1, (add state item).2 :: (addEach add (add state item).1 items).2)

/-- An accepted addition, by its place among all of them, with its pattern. -/
structure Slot (Serve ServeSession : Type*) where
  mount : Mount Serve ServeSession
  index : ℕ
  segments : List Segment

namespace Slot

def entry (slot : Slot Serve ServeSession) : RouteEntry where
  segments := slot.segments
  handler := slot.mount.handler
  operation := slot.mount.operation

def streamRoute (shared : Bool) (slot : Slot Serve ServeSession) : StreamRoute Serve ServeSession :=
  slot.mount.streamRoute shared slot.segments

theorem segments_entry (slot : Slot Serve ServeSession) : slot.entry.segments = slot.segments := rfl

theorem segments_streamRoute (shared : Bool) (slot : Slot Serve ServeSession) :
    (slot.streamRoute shared).segments = slot.segments := by
  cases shared with
  | true => rfl
  | false => rfl

end Slot

def seamOf (shared : Bool) : Seam := if shared then .shared else .borrowed

/-- The two routers after the same additions, as images of one table. -/
structure Agree (shared : Bool) (mounts : List (Mount Serve ServeSession)) (table : Routes (Slot Serve ServeSession))
    (router : Router) (streams : WebSocketRouter Serve ServeSession) : Prop where
  ordered : Ordered table
  onRouter : router.routes = imageOf Slot.entry table
  onStreams : streams.routes = imageOf (Slot.streamRoute shared) table
  seam : streams.seam = .none ∨ streams.seam = seamOf shared
  indexed : ∀ method, ∀ slot ∈ bucket table method, mounts[slot.index]? = some slot.mount

/-- An addition whose seam has not been refused. -/
theorem addToStreams_eq {shared : Bool} {streams : WebSocketRouter Serve ServeSession}
    (seam : streams.seam = .none ∨ streams.seam = seamOf shared) (mount : Mount Serve ServeSession) :
    mount.addToStreams shared streams =
      streams.addRoute mount.method mount.pattern (mount.streamRoute shared) (seamOf shared) := by
  cases shared with
  | true =>
    have open_ : streams.seam ≠ .borrowed := by
      obtain none_ | same := seam
      · simp [none_]
      · simp [same, seamOf]
    rw [Mount.addToStreams, if_pos rfl, WebSocketRouter.addSession, if_neg open_]
    rfl
  | false =>
    have open_ : streams.seam ≠ .shared := by
      obtain none_ | same := seam
      · simp [none_]
      · simp [same, seamOf]
    rw [Mount.addToStreams, if_neg Bool.false_ne_true, WebSocketRouter.add, if_neg open_]
    rfl

variable {shared : Bool} {mounts : List (Mount Serve ServeSession)} {table : Routes (Slot Serve ServeSession)}
  {router : Router} {streams : WebSocketRouter Serve ServeSession}

theorem agree_nil (shared : Bool) : Agree shared ([] : List (Mount Serve ServeSession)) [] {} {} where
  ordered := List.Pairwise.nil
  onRouter := rfl
  onStreams := rfl
  seam := .inl rfl
  indexed _ _ member := absurd member List.not_mem_nil

/-- One more addition has one outcome, and leaves the routers in agreement. -/
theorem Agree.add (agree : Agree shared mounts table router streams) (mount : Mount Serve ServeSession) :
    (mount.addToStreams shared streams).2 = (mount.addToRouter router).2 ∧
      ∃ next, Agree shared (mounts ++ [mount]) next (mount.addToRouter router).1 (mount.addToStreams shared streams).1 := by
  let slot (segments : List Segment) : Slot Serve ServeSession := ⟨mount, mounts.length, segments⟩
  have onRouter : mount.addToRouter router =
      ((addRoute Slot.segments table mount.method mount.pattern slot).map (fun next => ⟨imageOf Slot.entry next⟩) id) := by
    change (addRoute RouteEntry.segments router.routes mount.method mount.pattern fun parsed => (slot parsed).entry).map
      Router.mk id = _
    rw [agree.onRouter, addRoute_imageOf Slot.segments_entry]
    rfl
  have onStreams := addToStreams_eq agree.seam mount
  have images :=
    @addRoute_imageOf _ _ _ _ (Slot.streamRoute shared)
      (Slot.segments_streamRoute shared) table mount.method mount.pattern slot
  rw [WebSocketRouter.addRoute, agree.onStreams] at onStreams
  change addRoute StreamRoute.segments _ _ _ (mount.streamRoute shared) = _ at images
  rw [images] at onStreams
  have kept : ∀ method, ∀ other ∈ bucket table method, (mounts ++ [mount])[other.index]? = some other.mount := by
    intro method other member
    have found := agree.indexed method other member
    obtain ⟨inside, _⟩ := List.getElem?_eq_some_iff.mp found
    rw [List.getElem?_append_left inside, found]
  obtain ⟨error, refused, _⟩ | ⟨parsed, _, _, added⟩ :=
    addRoute_cases Slot.segments mount.method mount.pattern agree.ordered slot
  · rw [refused] at onRouter onStreams
    rw [onRouter, onStreams]
    exact ⟨rfl, table, agree.ordered, rfl, rfl, agree.seam, kept⟩
  · rw [added] at onRouter onStreams
    rw [onRouter, onStreams]
    refine ⟨rfl, _, (agree.ordered.tryEmplace _ _).modify _ _, rfl, rfl, .inr rfl, ?_⟩
    intro method other member
    rw [bucket_modify _ _ _ (OrderedMap.mem_keys_tryEmplace.mpr (.inl rfl)), bucket_tryEmplace agree.ordered,
      bucket_tryEmplace agree.ordered] at member
    split_ifs at member with same
    · obtain before | last := List.mem_append.mp member
      · exact kept _ other before
      · rw [List.mem_singleton.mp last]
        exact List.getElem?_concat_length
    · exact kept _ other member

/-- After any additions to both routers. -/
theorem Agree.addEach (agree : Agree shared mounts table router streams) (more : List (Mount Serve ServeSession)) :
    (Server.addEach (fun streams mount => Mount.addToStreams shared streams mount) streams more).2 =
        (Server.addEach Mount.addToRouter router more).2 ∧
      ∃ next, Agree shared (mounts ++ more) next (Server.addEach Mount.addToRouter router more).1
        (Server.addEach (fun streams mount => Mount.addToStreams shared streams mount) streams more).1 := by
  induction more generalizing mounts table router streams with
  | nil => exact ⟨rfl, table, by rwa [List.append_nil]⟩
  | cons mount more ih =>
    obtain ⟨outcome, next, agree'⟩ := agree.add mount
    obtain ⟨outcomes, last, agree''⟩ := ih agree'
    rw [List.append_assoc] at agree''
    refine ⟨?_, last, agree''⟩
    rw [Server.addEach, Server.addEach, outcome, outcomes]

/-! ## The decisions -/

/-- The gate refuses what the router refuses, with the same response. -/
theorem Agree.gate_eq_some (agree : Agree shared mounts table router streams) (request : HttpRequest)
    (response : HttpResponse) :
    streams.gate request = some response ↔ router.dispatch request = .error response := by
  rw [WebSocketRouter.gate, Router.dispatch]
  cases normalizedTarget request with
  | error error => simp
  | ok target =>
    dsimp only
    rw [agree.onRouter, agree.onStreams, findBest_imageOf (Slot.segments_streamRoute shared),
      missed_imageOf (Slot.segments_streamRoute shared), findBest_imageOf Slot.segments_entry,
      missed_imageOf Slot.segments_entry]
    cases findBest Slot.segments table request.method target.pathSegments with
    | none => simp
    | some slot => simp

theorem Agree.gate_eq_none (agree : Agree shared mounts table router streams) (request : HttpRequest) :
    streams.gate request = none ↔ ∃ dispatched, router.dispatch request = .ok dispatched := by
  cases dispatched : router.dispatch request with
  | error response =>
    rw [(agree.gate_eq_some request response).mpr dispatched]
    simp
  | ok result =>
    refine iff_of_true ?_ ⟨result, rfl⟩
    rw [Option.eq_none_iff_forall_ne_some]
    intro response refused
    rw [(agree.gate_eq_some request response).mp refused] at dispatched
    cases dispatched

/-- What the router dispatches is matched again when it is served: the route of the same addition, at
the same place of its bucket, with the same context. -/
theorem Agree.matchForServe_of_dispatch (agree : Agree shared mounts table router streams) {request : HttpRequest}
    {entry : RouteEntry}
    {context : RequestContext} (dispatched : router.dispatch request = .ok (entry, context)) :
    ∃ (index position : ℕ) (mount : Mount Serve ServeSession), mounts[index]? = some mount ∧
      entry = ⟨entry.segments, mount.handler, mount.operation⟩ ∧
      streams.matchForServe request = some (mount.streamRoute shared entry.segments, context) ∧
      (bucket router.routes request.method)[position]? = some entry ∧
      (bucket streams.routes request.method)[position]? = some (mount.streamRoute shared entry.segments) := by
  rw [Router.dispatch] at dispatched
  rw [WebSocketRouter.matchForServe]
  cases normalized : normalizedTarget request with
  | error error =>
    rw [normalized] at dispatched
    cases dispatched
  | ok target =>
    rw [normalized] at dispatched
    dsimp only at dispatched ⊢
    rw [agree.onRouter, findBest_imageOf Slot.segments_entry] at dispatched
    rw [agree.onStreams, findBest_imageOf (Slot.segments_streamRoute shared), agree.onRouter, bucket_imageOf, bucket_imageOf]
    cases found : findBest Slot.segments table request.method target.pathSegments with
    | none =>
      rw [found] at dispatched
      cases dispatched
    | some slot =>
      rw [found] at dispatched
      cases dispatched
      have member : slot ∈ bucket table request.method := by
        rw [findBest_eq] at found
        exact Selection.mem_of_select found
      obtain ⟨position, place⟩ := List.mem_iff_getElem?.mp member
      refine ⟨slot.index, position, slot.mount, agree.indexed _ slot member, rfl, ?_, ?_, ?_⟩
      · rw [Option.map_some, Option.map_some, Slot.segments_streamRoute]
        rfl
      · rw [List.getElem?_map, place]
        rfl
      · rw [List.getElem?_map, place]
        rfl

/-- What the gate refuses finds no route when it is served. -/
theorem matchForServe_of_refused {request : HttpRequest} {response : HttpResponse}
    (refused : streams.gate request = some response) : streams.matchForServe request = none := by
  rw [WebSocketRouter.gate] at refused
  rw [WebSocketRouter.matchForServe]
  cases normalized : normalizedTarget request with
  | error error => rfl
  | ok target =>
    rw [normalized] at refused
    dsimp only at refused ⊢
    cases found : findBest StreamRoute.segments streams.routes request.method target.pathSegments with
    | none => rfl
    | some best =>
      rw [found] at refused
      cases refused

/-- The methods with a name, other than that of the request, that have a route for the target. -/
def Allows (router : Router) (request : HttpRequest) (target : List Bytes) (methods : List Bytes) : Prop :=
  methods.Pairwise (· < ·) ∧ ∀ method, method ∈ methods ↔
    method ≠ [] ∧ method ≠ request.method ∧ ∃ entry ∈ bucket router.routes method,
      Matches RouteEntry.segments target entry = true

/-- The values of the `Allow` header. -/
def allowValues (response : HttpResponse) : List Bytes :=
  (response.headers.entries.filter fun entry => headerNameEquals entry.1 (ascii "allow")).map Prod.snd

/-- Why the router refuses a request, and with what. -/
def Refusal (router : Router) (request : HttpRequest) (response : HttpResponse) : Prop :=
  match normalizedTarget request with
  | .error _ => response.status = 400 ∧ allowValues response = []
  | .ok target => matching RouteEntry.segments router.routes request.method target.pathSegments = [] ∧
    ∃ methods, Allows router request target.pathSegments methods ∧
      if methods = [] then response.status = 404 ∧ allowValues response = []
      else response.status = 405 ∧ allowValues response = [(ascii ", ").intercalate methods] ∧
        (ascii ", ").intercalate methods ≠ []

theorem refusal_of_dispatch (ordered : Ordered router.routes) {request : HttpRequest} {response : HttpResponse}
    (refused : router.dispatch request = .error response) : Refusal router request response := by
  rw [Router.dispatch] at refused
  rw [Refusal]
  cases normalized : normalizedTarget request with
  | error error =>
    rw [normalized] at refused
    cases refused
    exact ⟨rfl, by decide⟩
  | ok target =>
    rw [normalized] at refused
    dsimp only at refused ⊢
    cases found : findBest RouteEntry.segments router.routes request.method target.pathSegments with
    | some best =>
      rw [found] at refused
      cases refused
    | none =>
      rw [found] at refused
      cases refused
      refine ⟨findBest_eq_none.mp found, allowedMethods RouteEntry.segments router.routes request.method target.pathSegments,
        ⟨allowedMethods_ascending ordered, fun method => mem_allowedMethods⟩, ?_⟩
      split_ifs with none_
      · rw [missed_of_none ordered none_]
        exact ⟨rfl, by decide⟩
      · rw [missed_of_some ordered none_]
        refine ⟨rfl, ?_, ?_⟩
        · rfl
        · rw [Ne, intercalate_eq_nil fun name member => (mem_allowedMethods.mp member).1]
          exact none_

/-- The routers after the same additions, each of which is made to both, on one seam. -/
theorem routers_agree_on_requests (shared : Bool) (mounts : List (Mount Serve ServeSession)) :
    let (router, outcomes) := addEach Mount.addToRouter {} mounts
    let (streams, outcomes') := addEach (fun streams mount => Mount.addToStreams shared streams mount) {} mounts
    outcomes' = outcomes ∧ ∀ request,
      (streams.gate request = none ↔ ∃ dispatched, router.dispatch request = .ok dispatched) ∧
      (∀ response, streams.gate request = some response ↔ router.dispatch request = .error response) ∧
      (∀ response, streams.gate request = some response →
        router.route request = response ∧ streams.matchForServe request = none ∧ Refusal router request response) ∧
      ∀ entry context, router.dispatch request = .ok (entry, context) →
        ∃ (index position : ℕ) (mount : Mount Serve ServeSession), mounts[index]? = some mount ∧
          entry = ⟨entry.segments, mount.handler, mount.operation⟩ ∧
          streams.matchForServe request = some (mount.streamRoute shared entry.segments, context) ∧
          (bucket router.routes request.method)[position]? = some entry ∧
          (bucket streams.routes request.method)[position]? = some (mount.streamRoute shared entry.segments) := by
  obtain ⟨outcomes, table, agree⟩ := (agree_nil shared).addEach mounts
  rw [List.nil_append] at agree
  have ordered := agree.ordered
  rw [← @ordered_imageOf _ _ Slot.entry, ← agree.onRouter] at ordered
  refine ⟨outcomes, fun request => ⟨agree.gate_eq_none request, agree.gate_eq_some request, ?_, ?_⟩⟩
  · intro response refused
    have dispatched := (agree.gate_eq_some request response).mp refused
    refine ⟨?_, matchForServe_of_refused refused, refusal_of_dispatch ordered dispatched⟩
    rw [Router.route, dispatched]
  · exact fun entry context => agree.matchForServe_of_dispatch

/-- A method without a name is not listed, though it has a route; and a router of upgrades refuses the
second seam, which the other router does not know. -/
theorem routers_disagree_unnamed :
    ∃ (handler : RouteHandler) (router : Router) (request : HttpRequest) (response : HttpResponse),
    router = Router.after [⟨[], ascii "/a", handler, []⟩, ⟨ascii "GET", ascii "/a", handler, []⟩] ∧
    router.dispatch request = .error response ∧ response.status = 405 ∧
    (¬ ∃ methods : List Bytes, methods.Pairwise (· < ·) ∧
      (∀ method, method ∈ methods ↔ method ≠ request.method ∧
        ∃ entry ∈ bucket router.routes method, Matches RouteEntry.segments [ascii "a"] entry = true) ∧
      allowValues response = [(ascii ", ").intercalate methods]) ∧
    (((({} : Router).add (ascii "GET") (ascii "/a") handler).1.add (ascii "GET") (ascii "/b") handler).2.isOk = true) ∧
    (((({} : WebSocketRouter Unit Unit).add (ascii "GET") (ascii "/a") (some ())).1.addSession (ascii "GET") (ascii "/b")
      (some ())).2.isOk = false) := by
  let handler : RouteHandler := fun _ _ => {}
  let router := Router.after [⟨[], ascii "/a", handler, []⟩, ⟨ascii "GET", ascii "/a", handler, []⟩]
  let request : HttpRequest := { method := ascii "POST", target := ascii "/a" }
  have answered : (match router.dispatch request with
      | .error response => decide (response.status = 405 ∧ allowValues response = [ascii "GET"])
      | .ok _ => false) = true := by decide +kernel
  have unnamed : (bucket router.routes []).any (Matches RouteEntry.segments [ascii "a"]) = true := by decide +kernel
  cases dispatched : router.dispatch request with
  | ok result =>
    rw [dispatched] at answered
    cases answered
  | error response =>
    rw [dispatched, decide_eq_true_eq] at answered
    refine ⟨handler, router, request, response, rfl, dispatched, answered.1, ?_, by decide +kernel, by decide +kernel⟩
    rintro ⟨methods, ascending, listed, value⟩
    have member : [] ∈ methods := (listed []).mpr ⟨by decide, List.any_eq_true.mp unnamed⟩
    rw [answered.2, List.singleton_inj] at value
    cases methods with
    | nil => cases member
    | cons first rest =>
      obtain ⟨least, _⟩ := List.pairwise_cons.mp ascending
      have empty : first = [] := by
        obtain same | later := List.mem_cons.mp member
        · exact same.symm
        · exact absurd (least [] later) (List.not_lt_nil first)
      rw [empty] at value
      cases rest with
      | nil =>
        rw [List.intercalate_singleton] at value
        exact absurd value (by decide)
      | cons next rest =>
        rw [List.intercalate_cons_cons, List.nil_append] at value
        have start := congrArg (List.take 1) value
        rw [List.take_append_of_le_length (by decide)] at start
        exact absurd start (by decide)

end OpalCpp.Server
