import Mathlib.Data.List.DropRight
import Mathlib.Data.List.Sort
import Mathlib.Data.Prod.Lex
import OpalCpp.Machine.Binary64
import OpalCpp.Machine.Decimal
import OpalCpp.Machine.Ladder
import OpalCpp.Machine.OrderedMap
import OpalCpp.Model.Core.Bytes

/-! # The metrics registry

The tallies of served requests, the families of the application and the Prometheus text of both. An
abort is an error with its message, and the counts are natural numbers. A mutex makes each operation one
step; a handle is the name of its family, and there is none in a registry that is disabled.
-/

namespace OpalCpp.Server.Metrics

open scoped Bytes
open Bytes (ascii)
open Decimal (decimal)
open Ladder (cumulative)

/-- `opal::internal::Fatal`. -/
def Fatal {α : Type} (message : String) : Except String α := .error message

def kRequestsTotal : Bytes := ascii "http_server_requests_total"
def kRequestsSuccess : Bytes := ascii "http_server_requests_success_total"
def kRequestsFailure : Bytes := ascii "http_server_requests_failure_total"
def kRequestsActive : Bytes := ascii "http_server_requests_active_gauge"
def kRequestDuration : Bytes := ascii "http_server_request_duration_microseconds"
def kObservationsDropped : Bytes := ascii "metrics_observations_dropped_total"

def kRequestsTotalHelp : Bytes := ascii "HTTP requests received"
def kRequestsSuccessHelp : Bytes := ascii "HTTP requests completed successfully (2xx-3xx)"
def kRequestsFailureHelp : Bytes := ascii "HTTP requests that returned 4xx or 5xx"
def kRequestsActiveHelp : Bytes := ascii "HTTP requests currently in flight"
def kRequestDurationHelp : Bytes := ascii "HTTP request duration in microseconds"
def kObservationsDroppedHelp : Bytes := ascii "Observations dropped after the registry hit its series cap."

def kServiceLabel : Bytes := ascii "service_name"
def kMethodLabel : Bytes := ascii "http_method"
def kRouteLabel : Bytes := ascii "route"

def kUnmatchedRoute : Bytes := ascii "unmatched"
def kCustomMethod : Bytes := ascii "CUSTOM"
def kUnparsedMethod : Bytes := ascii "(unparsed)"

/-- The boundaries of the latency buckets as numbers, in microseconds. -/
def latencyBounds : List ℤ :=
  [100, 250, 500, 1000, 2500, 5000, 10000, 25000, 50000, 100000, 250000, 500000, 1000000, 2500000, 10000000]

def HttpLatencyBuckets : List Binary64 := latencyBounds.map fun bound : ℤ => Binary64.nearest bound

/-! ## Text -/

def escapeLabel (value : Bytes) : Bytes :=
  value.flatMap fun c =>
    if c = '\\'.toUInt8 then ascii "\\\\"
    else if c = '"'.toUInt8 then ascii "\\\""
    else if c = '\n'.toUInt8 then ascii "\\n"
    else [c]

/-- A quote needs no escaping here. -/
def escapeHelp (help : Bytes) : Bytes :=
  help.flatMap fun c =>
    if c = '\\'.toUInt8 then ascii "\\\\" else if c = '\n'.toUInt8 then ascii "\\n" else [c]

def kKnown : List Bytes :=
  ["GET", "HEAD", "POST", "PUT", "PATCH", "DELETE", "OPTIONS", "TRACE", "CONNECT"].map ascii

def normalizeMethod (method : Bytes) : Bytes := if method ∈ kKnown then method else kCustomMethod

/-- The conversions of the C library: `%.6f`, `%.*g` and `strtod`. -/
structure NumberText where
  fixed : Binary64 → Bytes
  general : ℕ → Binary64 → Bytes
  strtod : Bytes → Binary64

/-- The zeros at the end of a fraction go, and the point with them when nothing is left behind it. -/
def trimZeros (text : Bytes) : Bytes :=
  if '.'.toUInt8 ∈ text then
    let text := text.rdropWhile (· = '0'.toUInt8)
    if text.getLast? = some '.'.toUInt8 then text.dropLast else text
  else text

/-- A text that fits in the buffer of 64 bytes, with its terminator. -/
def fits (written : Bytes) : Bool := 0 < written.length && written.length < 64

def formatNumber (library : NumberText) (value : Binary64) : Bytes :=
  let readsBack (text : Bytes) : Bool := (library.strtod text).equals value
  if value.isInfinite then if value.isNegative then ascii "-Inf" else ascii "+Inf"
  else if value.isNaN then ascii "NaN"
  else
    let text := trimZeros (library.fixed value)
    if fits (library.fixed value) && text ≠ [] && readsBack text then text
    else
      -- The shortest form that is read back, the fewest digits first.
      (([15, 16, 17].map fun digits => library.general digits value).find? fun written =>
        fits written && readsBack written).getD (ascii "0")

def isNameStart (allowColon : Bool) (c : UInt8) : Bool :=
  c = '_'.toUInt8 || ('a'.toUInt8 ≤ c && c ≤ 'z'.toUInt8) || ('A'.toUInt8 ≤ c && c ≤ 'Z'.toUInt8) ||
    (allowColon && c = ':'.toUInt8)

def validName (name : Bytes) (allowColon : Bool) : Bool :=
  match name with
  | [] => false
  | first :: rest => isNameStart allowColon first && rest.all fun c => isNameStart allowColon c || Decimal.isDigit c

abbrev MetricLabels := List (Bytes × Bytes)

/-- One label of the text between the braces. -/
def labelText (label : Bytes × Bytes) : Bytes := label.1 ++ ascii "=\"" ++ escapeLabel label.2 ++ ascii "\""

/-- The loop of `RenderLabels` over the sorted labels, with the name of the one before. -/
def renderSorted (histogram : Bool) (previous : Option Bytes) (out : Bytes) : MetricLabels → Except String Bytes
  | [] => .ok out
  | (name, value) :: rest =>
    if !validName name false then
      Fatal ("opal::server::MetricsRegistry: invalid label name '" ++ name.text ++ "'")
    else if previous = some name then
      Fatal ("opal::server::MetricsRegistry: duplicate label name '" ++ name.text ++ "'")
    else if histogram && name = ascii "le" then
      Fatal "opal::server::MetricsRegistry: 'le' is reserved on a histogram's series"
    else
      renderSorted histogram (some name) ((if out = [] then [] else out ++ [','.toUInt8]) ++ labelText (name, value)) rest

def renderLabels (labels : MetricLabels) (histogram : Bool) : Except String Bytes :=
  renderSorted histogram none [] (labels.insertionSort fun a b => a.1 ≤ b.1)

/-- `to_string` of a number that may be negative. -/
def signed (number : ℤ) : Bytes := if number < 0 then '-'.toUInt8 :: decimal number.natAbs else decimal number.natAbs

/-- The text between the braces, which a sample without labels does not have. -/
def braced (labels : Bytes) : Bytes := if labels = [] then [] else '\x7b'.toUInt8 :: labels ++ ['\x7d'.toUInt8]

/-- `AppendSample`: the line that is appended. -/
def sampleLine (name suffix labels value : Bytes) : Bytes :=
  name ++ suffix ++ braced labels ++ [' '.toUInt8] ++ value ++ ['\n'.toUInt8]

/-- `AppendFamilyHeader`: the two lines that are appended. -/
def familyHeader (name type help : Bytes) : Bytes :=
  ascii "# HELP " ++ name ++ [' '.toUInt8] ++ escapeHelp help ++ ascii "\n# TYPE " ++ name ++ [' '.toUInt8] ++ type ++
    ['\n'.toUInt8]

/-! ## Families of the application -/

inductive Kind where
  | counter | gauge | histogram
deriving DecidableEq, Repr

/-- The type that the header of a family names. -/
def kindText : Kind → Bytes
  | .counter => ascii "counter"
  | .gauge => ascii "gauge"
  | .histogram => ascii "histogram"

structure Sample where
  value : Binary64 := ⟨0⟩
  count : ℕ := 0
  bucketCounts : List ℕ := []
deriving DecidableEq

structure MetricFamily where
  name : Bytes
  help : Bytes
  kind : Kind
  buckets : List Binary64
  maxSeries : ℕ
  samples : List (Bytes × Sample) := []
  dropped : ℕ := 0
deriving DecidableEq

/-- `lower_bound` over ascending boundaries: the first that is not below the value, or their number. -/
def lowerBound (buckets : List Binary64) (value : Binary64) : ℕ := buckets.findIdx fun bound => !bound.less value

/-- The count of the bucket goes up; a value past the last boundary is in none. -/
def countIn (buckets : List Binary64) (value : Binary64) (counts : List ℕ) : List ℕ :=
  counts.modify (lowerBound buckets value) (· + 1)

namespace MetricFamily

variable (family : MetricFamily)

def add (labels : MetricLabels) (amount : Binary64) (set : Bool) : Except String MetricFamily := do
  let key ← renderLabels labels (family.kind = .histogram)
  if (OrderedMap.find? key family.samples).isSome then
    let change (sample : Sample) : Sample := { sample with value := if set then amount else sample.value.add amount }
    return { family with samples := OrderedMap.modify key change family.samples }
  else if family.maxSeries ≤ family.samples.length then return { family with dropped := family.dropped + 1 }
  else return { family with samples := OrderedMap.tryEmplace key { value := amount } family.samples }

/-- A distribution without an observation. -/
def emptySample : Sample := { bucketCounts := List.replicate family.buckets.length 0 }

def observe (labels : MetricLabels) (value : Binary64) : Except String MetricFamily := do
  let key ← renderLabels labels (family.kind = .histogram)
  let change (sample : Sample) : Sample :=
    { value := sample.value.add value, count := sample.count + 1,
      bucketCounts := countIn family.buckets value sample.bucketCounts }
  if (OrderedMap.find? key family.samples).isNone ∧ family.maxSeries ≤ family.samples.length then
    return { family with dropped := family.dropped + 1 }
  else
    return { family with
      samples := OrderedMap.modify key change (OrderedMap.tryEmplace key family.emptySample family.samples) }

def declare (labels : MetricLabels) : Except String MetricFamily := do
  let key ← renderLabels labels (family.kind = .histogram)
  if (OrderedMap.find? key family.samples).isSome then return family
  else if family.maxSeries ≤ family.samples.length then return { family with dropped := family.dropped + 1 }
  else return { family with samples := OrderedMap.tryEmplace key family.emptySample family.samples }

end MetricFamily

/-! ## The registry -/

structure MetricsOptions where
  enabled : Bool := false
  serviceName : Bytes := []
  maxSeries : ℕ := 4096
deriving DecidableEq

/-- The method and the route, in the order of pairs. -/
abbrev RouteKey := Bytes ×ₗ Bytes

structure RouteStats where
  requests : ℕ := 0
  success : ℕ := 0
  failure : ℕ := 0
  buckets : List ℕ := []
  durationSum : Binary64 := ⟨0⟩
  durationCount : ℕ := 0
deriving DecidableEq

structure RequestStart where
  method : Bytes

/-- The duration is in microseconds. -/
structure RequestObservation where
  method : Bytes
  operation : Bytes
  status : ℤ
  duration : Int64

structure MetricsRegistry where
  options : MetricsOptions
  routes : List (RouteKey × RouteStats) := []
  inFlight : List (Bytes × ℤ) := []
  observationsDropped : ℕ := 0
  families : List (Bytes × MetricFamily) := []
deriving DecidableEq

/-- A family by its name; a handle of a registry that is disabled is null. -/
abbrev Handle := Option Bytes

/-- A latency in the tallies of its route. -/
def RouteStats.time (stats : RouteStats) (duration : Binary64) : RouteStats :=
  { stats with
    durationSum := stats.durationSum.add duration
    durationCount := stats.durationCount + 1
    buckets := countIn HttpLatencyBuckets duration stats.buckets }

/-- A request in the tallies of its route, by its status. -/
def RouteStats.count (stats : RouteStats) (status : ℤ) : RouteStats :=
  if status < 400 then { stats with requests := stats.requests + 1, success := stats.success + 1 }
  else { stats with requests := stats.requests + 1, failure := stats.failure + 1 }

namespace MetricsRegistry

/-- The constructor. -/
def create (options : MetricsOptions) : Except String MetricsRegistry :=
  if options.enabled && options.serviceName = [] then
    Fatal "opal::server::MetricsRegistry: service_name is required when metrics are enabled"
  else .ok { options }

variable (registry : MetricsRegistry)

def recordStart (start : RequestStart) : MetricsRegistry :=
  if !registry.options.enabled then registry
  else
    let method := normalizeMethod start.method
    { registry with
      inFlight := OrderedMap.modify method (· + 1) (OrderedMap.tryEmplace method 0 registry.inFlight) }

/-- The key has its record, or there is room for one. -/
def admits (key : RouteKey) : Prop :=
  (OrderedMap.find? key registry.routes).isSome ∨ registry.routes.length < registry.options.maxSeries

instance (key : RouteKey) : Decidable (registry.admits key) := by
  unfold admits
  infer_instance

/-- `AdmitRoute`, and what the caller does with the record it points to. -/
def admitRoute (key : RouteKey) (change : RouteStats → RouteStats) : MetricsRegistry :=
  if registry.admits key then
    { registry with
      routes := OrderedMap.modify key change
        (OrderedMap.tryEmplace key { buckets := List.replicate HttpLatencyBuckets.length 0 } registry.routes) }
  else { registry with observationsDropped := registry.observationsDropped + 1 }

def routeKey (observation : RequestObservation) : RouteKey :=
  toLex (normalizeMethod observation.method,
    if observation.operation = [] then kUnmatchedRoute else observation.operation)

def record (observation : RequestObservation) : MetricsRegistry :=
  if !registry.options.enabled then registry
  else
    let duration := Binary64.nearest observation.duration.toInt
    -- Before the cap is checked, so that a route that is refused does not stay in flight.
    let finished := OrderedMap.modify (normalizeMethod observation.method)
      (fun count => if 0 < count then count - 1 else count) registry.inFlight
    { registry with inFlight := finished }.admitRoute (routeKey observation) fun stats =>
      (stats.count observation.status).time duration

def rejectionKey (method : Bytes) : RouteKey :=
  toLex (if method = [] then kUnparsedMethod else normalizeMethod method, kUnmatchedRoute)

/-- A request that was refused before there was a handler is counted and not timed. -/
def recordRejection (method : Bytes) (status : ℤ) : MetricsRegistry :=
  if !registry.options.enabled then registry
  else registry.admitRoute (rejectionKey method) fun stats => stats.count status

def reservedNames : List Bytes :=
  [kRequestsTotal, kRequestsSuccess, kRequestsFailure, kRequestsActive, kRequestDuration, kObservationsDropped]

/-- Ladders are compared number by number. -/
def sameLadder (first second : List Binary64) : Bool :=
  first.length = second.length && (first.zip second).all fun pair => pair.1.equals pair.2

/-- `Register`, and the handle that its callers make of the family. -/
def register (name help : Bytes) (kind : Kind) (buckets : List Binary64) : Except String (MetricsRegistry × Handle) :=
  let handle := if registry.options.enabled then some name else none
  if !validName name true then
    Fatal ("opal::server::MetricsRegistry: invalid metric name '" ++ name.text ++ "'")
  else if name ∈ reservedNames then
    Fatal ("opal::server::MetricsRegistry: '" ++ name.text ++ "' is one of the built-in families")
  else
    match OrderedMap.find? name registry.families with
    | some existing =>
      if existing.kind ≠ kind ∨ existing.help ≠ help ∨ sameLadder existing.buckets buckets = false then
        Fatal ("opal::server::MetricsRegistry: '" ++ name.text ++
          "' is already registered with a different type, help text, or bucket ladder")
      else .ok (registry, handle)
    | none =>
      let family : MetricFamily := { name, help, kind, buckets, maxSeries := registry.options.maxSeries }
      .ok ({ registry with families := OrderedMap.tryEmplace name family registry.families }, handle)

def newCounter (name help : Bytes) : Except String (MetricsRegistry × Handle) := registry.register name help .counter []

def newGauge (name help : Bytes) : Except String (MetricsRegistry × Handle) := registry.register name help .gauge []

/-- The loop over the ladder, with the boundary before. -/
def checkBuckets (name : Bytes) (previous : Option Binary64) : List Binary64 → Except String Unit
  | [] => .ok ()
  | bound :: rest =>
    if bound.isInfinite || bound.isNaN then
      Fatal ("opal::server::MetricsRegistry: histogram '" ++ name.text ++
        "' buckets must all be finite (the +Inf bucket is implicit)")
    else if previous.any fun before => bound.less before || bound.equals before then
      Fatal ("opal::server::MetricsRegistry: histogram '" ++ name.text ++ "' buckets must be strictly ascending")
    else checkBuckets name (some bound) rest

def newHistogram (name help : Bytes) (buckets : List Binary64) : Except String (MetricsRegistry × Handle) :=
  if buckets = [] then
    Fatal ("opal::server::MetricsRegistry: histogram '" ++ name.text ++
      "' needs at least one bucket (the +Inf bucket is implicit)")
  else do
    checkBuckets name none buckets
    registry.register name help .histogram buckets

/-- What a handle does goes to its family; a null one does nothing. -/
def update (handle : Handle) (change : MetricFamily → Except String MetricFamily) : Except String MetricsRegistry :=
  match handle with
  | none => .ok registry
  | some name =>
    match OrderedMap.find? name registry.families with
    | none => .ok registry
    | some family => do
      let changed ← change family
      return { registry with families := OrderedMap.modify name (fun _ => changed) registry.families }

end MetricsRegistry

/-- The amount is checked before the handle is. -/
def Counter.increment (registry : MetricsRegistry) (counter : Handle) (labels : MetricLabels) (amount : Binary64) :
    Except String MetricsRegistry :=
  if amount.less ⟨0⟩ then
    Fatal "opal::server::Counter: a counter may not be incremented by a negative amount"
  else registry.update counter fun family => family.add labels amount false

namespace Gauge

variable (registry : MetricsRegistry) (gauge : Handle) (labels : MetricLabels)

def set (value : Binary64) : Except String MetricsRegistry :=
  registry.update gauge fun family => family.add labels value true

def increment (amount : Binary64) : Except String MetricsRegistry :=
  registry.update gauge fun family => family.add labels amount false

def decrement (amount : Binary64) : Except String MetricsRegistry := increment registry gauge labels amount.neg

end Gauge

def Histogram.observe (registry : MetricsRegistry) (histogram : Handle) (labels : MetricLabels) (value : Binary64) :
    Except String MetricsRegistry :=
  registry.update histogram fun family => family.observe labels value

/-- `Declare`, which is the same of the three handles. -/
def Handle.declare (registry : MetricsRegistry) (handle : Handle) (labels : MetricLabels) : Except String MetricsRegistry :=
  registry.update handle fun family => family.declare labels

/-! ## The exposition -/

namespace MetricsRegistry

variable (registry : MetricsRegistry)

def builtInLabels (labels : MetricLabels) : Bytes :=
  labels.foldl (fun out label => out ++ ','.toUInt8 :: labelText label)
    (labelText (kServiceLabel, registry.options.serviceName))

def routeLabels (key : RouteKey) : Bytes :=
  registry.builtInLabels [(kMethodLabel, (ofLex key).1), (kRouteLabel, (ofLex key).2)]

/-- The labels of a bucket line: those of the series, and then the boundary. -/
def bucketLabels (labels bound : Bytes) : Bytes :=
  (if labels = [] then [] else labels ++ [','.toUInt8]) ++ ascii "le=\"" ++ bound ++ ascii "\""

/-- The lines of one series of a histogram. -/
def histogramLines (library : NumberText) (name labels : Bytes) (buckets : List Binary64) (counts : List ℕ)
    (sum : Binary64) (count : ℕ) : Bytes :=
  ((buckets.zip (cumulative counts)).flatMap fun (bound, total) =>
    sampleLine name (ascii "_bucket") (bucketLabels labels (formatNumber library bound)) (decimal total)) ++
  sampleLine name (ascii "_bucket") (bucketLabels labels (ascii "+Inf")) (decimal count) ++
  sampleLine name (ascii "_sum") labels (formatNumber library sum) ++
  sampleLine name (ascii "_count") labels (decimal count)

def counterFamily (name help : Bytes) (field : RouteStats → ℕ) : Bytes :=
  familyHeader name (ascii "counter") help ++
    registry.routes.flatMap fun (key, stats) => sampleLine name [] (registry.routeLabels key) (decimal (field stats))

def familyLines (library : NumberText) (name : Bytes) (family : MetricFamily) : Bytes :=
  familyHeader name (kindText family.kind) family.help ++
    family.samples.flatMap fun (labels, sample) =>
      if family.kind ≠ .histogram then sampleLine name [] labels (formatNumber library sample.value)
      else histogramLines library name labels family.buckets sample.bucketCounts sample.value sample.count

def expose (library : NumberText) : Bytes :=
  if !registry.options.enabled then []
  else
    registry.counterFamily kRequestsTotal kRequestsTotalHelp RouteStats.requests ++
    registry.counterFamily kRequestsSuccess kRequestsSuccessHelp RouteStats.success ++
    registry.counterFamily kRequestsFailure kRequestsFailureHelp RouteStats.failure ++
    familyHeader kRequestDuration (ascii "histogram") kRequestDurationHelp ++
    (registry.routes.flatMap fun (key, stats) =>
      -- A route that was only ever rejected has nothing timed.
      if stats.durationCount = 0 then []
      else histogramLines library kRequestDuration (registry.routeLabels key) HttpLatencyBuckets stats.buckets
        stats.durationSum stats.durationCount) ++
    familyHeader kRequestsActive (ascii "gauge") kRequestsActiveHelp ++
    (registry.inFlight.flatMap fun (method, count) =>
      sampleLine kRequestsActive [] (registry.builtInLabels [(kMethodLabel, method)]) (signed count)) ++
    familyHeader kObservationsDropped (ascii "counter") kObservationsDroppedHelp ++
    sampleLine kObservationsDropped [] (registry.builtInLabels []) (decimal registry.observationsDropped) ++
    (registry.families.flatMap fun (name, family) =>
      if family.dropped ≠ 0 then
        sampleLine kObservationsDropped [] (registry.builtInLabels [(ascii "metric", name)]) (decimal family.dropped)
      else []) ++
    registry.families.flatMap fun (name, family) => familyLines library name family

end MetricsRegistry

end OpalCpp.Server.Metrics
