import OpalCpp.Proofs.Server.MetricRuns

/-! # Scrapes

The exposition of a registry is the text of a list of families, each with its samples. Each of them is
sound in every state that a run reaches. That they are apart needs names that keep clear of one another,
which registration does not ask for.
-/

namespace OpalCpp.Server.Metrics

open scoped Bytes
open Bytes (ascii)
open Decimal (decimal)
open Exposition (Block Series SameLabels labelsText newline quote backslash write)
open Ladder (cumulative)

/-! ## Ladders -/

theorem isLadder_latency : IsLadder HttpLatencyBuckets := by
  refine ⟨latencyBounds.map fun bound : ℤ => (bound : ℚ), ?_, ?_⟩
  · have small : ∀ bound ∈ latencyBounds, |bound| < 2 ^ 53 := by decide
    rw [HttpLatencyBuckets, List.map_map, List.map_map]
    apply List.map_congr_left
    intro bound member
    exact Binary64.nearest_intCast (small bound member)
  · have ascending : latencyBounds.Pairwise (· < ·) := by decide
    exact List.pairwise_map.mpr (ascending.imp Int.cast_lt.mpr)

theorem IsLadder.finite {buckets : List Binary64} (ladder : IsLadder buckets) : ∀ bound ∈ buckets, bound.value?.isSome := by
  obtain ⟨numbers, values, _⟩ := ladder
  intro bound member
  have value : bound.value? ∈ numbers.map some := values ▸ List.mem_map_of_mem member
  obtain ⟨number, _, isNumber⟩ := List.mem_map.mp value
  rw [← isNumber]
  rfl

section Texts

variable {library : NumberText} (documented : library.Documented)

include documented

/-- The boundaries of a ladder are told apart by their texts. -/
theorem IsLadder.texts {buckets : List Binary64} (ladder : IsLadder buckets) :
    (buckets.map (formatNumber library)).Nodup := by
  have finite := ladder.finite
  obtain ⟨numbers, values, ascending⟩ := ladder
  have distinct : (buckets.map Binary64.value?).Nodup := by
    rw [values]
    exact (ascending.imp ne_of_lt).map some fun _ _ differ same => differ (Option.some.inj same)
  refine List.pairwise_map.mpr ((List.pairwise_map.mp distinct).imp_of_mem ?_)
  intro first second member member' differ same
  exact differ (value?_eq_of_formatNumber documented (finite first member) (finite second member') same)

theorem plain_formatNumber {bound : Binary64} (finite : bound.value?.isSome) :
    ∀ c ∈ formatNumber library bound, c ≠ quote ∧ c ≠ backslash ∧ c ≠ newline := by
  have plain : ∀ c ∈ plainBytes, c ≠ quote ∧ c ≠ backslash ∧ c ≠ newline := by decide
  exact fun c member => plain c ((formatNumber_finite documented finite).1 c member)

end Texts

/-! ## The families of a registry -/

theorem map_fst_zip_sublist {α β : Type*} (first : List α) (second : List β) :
    ((first.zip second).map Prod.fst).Sublist first := by
  induction first generalizing second with
  | nil => exact List.Sublist.refl _
  | cons item first ih =>
    cases second with
    | nil => exact List.nil_sublist _
    | cons other second => exact (ih second).cons_cons item

section Histograms

variable (library : NumberText)

/-- A series of a histogram with its boundaries; the last one is that of the count. -/
def histogramSeries (labels : MetricLabels) (buckets : List Binary64) (counts : List ℕ) (sum : Binary64) (count : ℕ) :
    Series where
  labels := labels
  bounds := (buckets.zip (cumulative counts)).map (fun entry => (formatNumber library entry.1, decimal entry.2)) ++
    [(ascii "+Inf", decimal count)]
  sum := formatNumber library sum
  count := decimal count

variable {library} (documented : library.Documented)

include documented

theorem histogramLines_eq (name : Bytes) (labels : MetricLabels) {buckets : List Binary64} (ladder : IsLadder buckets)
    (counts : List ℕ) (sum : Binary64) (count : ℕ) :
    MetricsRegistry.histogramLines library name (labelsText labels) buckets counts sum count =
      write (((histogramSeries library labels buckets counts sum count).samples name).map Exposition.Sample.line) := by
  have infinite : ∀ c ∈ ascii "+Inf", c ≠ quote ∧ c ≠ backslash ∧ c ≠ newline := by decide
  have bounds : ((buckets.zip (cumulative counts)).flatMap fun entry =>
      sampleLine name (ascii "_bucket") (MetricsRegistry.bucketLabels (labelsText labels) (formatNumber library entry.1))
        (decimal entry.2)) = (buckets.zip (cumulative counts)).flatMap fun entry =>
          write [(Series.bucket name labels (formatNumber library entry.1, decimal entry.2)).line] := by
    apply List.flatMap_congr
    rintro ⟨bound, total⟩ member
    have finite := ladder.finite bound (List.of_mem_zip member).1
    dsimp only
    rw [bucketLabels_eq (plain_formatNumber documented finite), sampleLine_eq]
    rfl
  rw [MetricsRegistry.histogramLines, bounds, bucketLabels_eq infinite, sampleLine_eq, sampleLine_eq, sampleLine_eq,
    Series.samples, histogramSeries, List.map_append, List.map_append, List.map_append, Exposition.write_append,
    Exposition.write_append, List.map_map, List.map_map, Exposition.write_map, List.append_assoc, ← Exposition.write_append]
  rfl

theorem sound_series {labels : MetricLabels} (clean : ∀ label ∈ labels, label.1 ≠ ascii "le") {buckets : List Binary64}
    (ladder : IsLadder buckets) (counts : List ℕ) (sum : Binary64) (count : ℕ) :
    (histogramSeries library labels buckets counts sum count).Sound := by
  refine ⟨clean, ?_⟩
  have finite : ((buckets.zip (cumulative counts)).map fun entry => formatNumber library entry.1).Nodup := by
    have part := (map_fst_zip_sublist buckets (cumulative counts)).map (formatNumber library)
    rw [List.map_map] at part
    exact (ladder.texts documented).sublist part
  have last : ascii "+Inf" ∉ (buckets.zip (cumulative counts)).map fun entry => formatNumber library entry.1 := by
    intro member
    obtain ⟨entry, inside, same⟩ := List.mem_map.mp member
    have plain := (formatNumber_finite documented (ladder.finite entry.1 (List.of_mem_zip inside).1)).1
    rw [same] at plain
    exact absurd plain (by decide)
  have texts : (histogramSeries library labels buckets counts sum count).bounds.map Prod.fst =
      ((buckets.zip (cumulative counts)).map fun entry => formatNumber library entry.1) ++ [ascii "+Inf"] := by
    rw [histogramSeries, List.map_append, List.map_map]
    rfl
  rw [texts]
  exact List.nodup_append.mpr ⟨finite, List.nodup_singleton _, fun text member other only same =>
    last ((same.trans (List.mem_singleton.mp only)) ▸ member)⟩

end Histograms

namespace MetricsRegistry

section Blocks

variable (registry : MetricsRegistry) (library : NumberText)

/-- The labels of a built-in series. -/
def builtInSet (labels : MetricLabels) : MetricLabels := (kServiceLabel, registry.options.serviceName) :: labels

def routeSet (key : RouteKey) : MetricLabels :=
  registry.builtInSet [(kMethodLabel, (ofLex key).1), (kRouteLabel, (ofLex key).2)]

def counterBlock (name help : Bytes) (field : RouteStats → ℕ) : Block where
  family := (name, kindText .counter)
  help := help
  samples := registry.routes.map fun entry => ⟨name, registry.routeSet entry.1, decimal (field entry.2)⟩

/-- The series of a route that has something timed. -/
def durationSeries (entry : RouteKey × RouteStats) : Series :=
  histogramSeries library (registry.routeSet entry.1) HttpLatencyBuckets entry.2.buckets entry.2.durationSum
    entry.2.durationCount

def durationBlock : Block where
  family := (kRequestDuration, kindText .histogram)
  help := kRequestDurationHelp
  samples := ((registry.routes.filter (·.2.durationCount ≠ 0)).map (registry.durationSeries library)).flatMap
    (Series.samples kRequestDuration)

def activeBlock : Block where
  family := (kRequestsActive, kindText .gauge)
  help := kRequestsActiveHelp
  samples := registry.inFlight.map fun entry =>
    ⟨kRequestsActive, registry.builtInSet [(kMethodLabel, entry.1)], signed entry.2⟩

def droppedBlock : Block where
  family := (kObservationsDropped, kindText .counter)
  help := kObservationsDroppedHelp
  samples := ⟨kObservationsDropped, registry.builtInSet [], decimal registry.observationsDropped⟩ ::
    (registry.families.filter (·.2.dropped ≠ 0)).map fun entry =>
      ⟨kObservationsDropped, registry.builtInSet [(ascii "metric", entry.1)], decimal entry.2.dropped⟩

/-- A series of a family that is a histogram. -/
def sampleSeries (family : MetricFamily) (entry : Bytes × Sample) : Series :=
  histogramSeries library (Exposition.parseLabels entry.1) family.buckets entry.2.bucketCounts entry.2.value entry.2.count

def familyBlock (entry : Bytes × MetricFamily) : Block where
  family := (entry.1, kindText entry.2.kind)
  help := entry.2.help
  samples :=
    if entry.2.kind ≠ .histogram then
      entry.2.samples.map fun sample => ⟨entry.1, Exposition.parseLabels sample.1, formatNumber library sample.2.value⟩
    else (entry.2.samples.map (sampleSeries library entry.2)).flatMap (Series.samples entry.1)

/-- What the exposition is the text of. -/
def blocks : List Block :=
  [registry.counterBlock kRequestsTotal kRequestsTotalHelp RouteStats.requests,
    registry.counterBlock kRequestsSuccess kRequestsSuccessHelp RouteStats.success,
    registry.counterBlock kRequestsFailure kRequestsFailureHelp RouteStats.failure,
    registry.durationBlock library, registry.activeBlock, registry.droppedBlock] ++
    registry.families.map (familyBlock library)

end Blocks

/-- A family is its header and the lines of its samples. -/
theorem write_block (block : Block) :
    write block.lines = familyHeader block.family.1 block.family.2 block.help ++
      write (block.samples.map Exposition.Sample.line) := by
  rw [familyHeader_eq, ← Exposition.write_append]
  rfl

theorem plainSample_eq (name value : Bytes) (labels : MetricLabels) :
    sampleLine name [] (labelsText labels) value = write [(⟨name, labels, value⟩ : Exposition.Sample).line] := by
  rw [sampleLine_eq, List.append_nil]
  rfl

theorem write_counterBlock (registry : MetricsRegistry) (name help : Bytes) (field : RouteStats → ℕ) :
    registry.counterFamily name help field = write (registry.counterBlock name help field).lines := by
  rw [write_block, counterFamily, counterBlock, List.map_map, Exposition.write_map]
  simp only [routeLabels, builtInLabels_eq, plainSample_eq]
  rfl

theorem write_activeBlock (registry : MetricsRegistry) :
    (familyHeader kRequestsActive (ascii "gauge") kRequestsActiveHelp ++
      registry.inFlight.flatMap fun (method, count) =>
        sampleLine kRequestsActive [] (registry.builtInLabels [(kMethodLabel, method)]) (signed count)) =
      write registry.activeBlock.lines := by
  rw [write_block, activeBlock, List.map_map, Exposition.write_map]
  simp only [builtInLabels_eq, plainSample_eq]
  rfl

theorem flatMap_filter {α β : Type*} (keep : α → Bool) (f : α → List β) (items : List α) :
    (items.filter keep).flatMap f = items.flatMap fun item => if keep item then f item else [] := by
  induction items with
  | nil => rfl
  | cons item items ih =>
    rw [List.filter_cons, List.flatMap_cons, ← ih]
    split_ifs <;> simp

theorem write_droppedBlock (registry : MetricsRegistry) :
    (familyHeader kObservationsDropped (ascii "counter") kObservationsDroppedHelp ++
      sampleLine kObservationsDropped [] (registry.builtInLabels []) (decimal registry.observationsDropped) ++
      registry.families.flatMap fun (name, family) =>
        if family.dropped ≠ 0 then
          sampleLine kObservationsDropped [] (registry.builtInLabels [(ascii "metric", name)]) (decimal family.dropped)
        else []) = write registry.droppedBlock.lines := by
  rw [write_block, droppedBlock, List.map_cons, List.map_map, Exposition.write_cons, Exposition.write_map,
    flatMap_filter, List.append_assoc]
  simp only [builtInLabels_eq, plainSample_eq, decide_eq_true_eq]
  rfl

section Documented

variable {library : NumberText} (documented : library.Documented)

include documented

theorem write_durationBlock (registry : MetricsRegistry) :
    (familyHeader kRequestDuration (ascii "histogram") kRequestDurationHelp ++
      registry.routes.flatMap fun (key, stats) =>
        if stats.durationCount = 0 then []
        else histogramLines library kRequestDuration (registry.routeLabels key) HttpLatencyBuckets stats.buckets
          stats.durationSum stats.durationCount) = write (registry.durationBlock library).lines := by
  rw [write_block, durationBlock]
  dsimp only
  rw [List.map_flatMap, Exposition.write_flatMap, List.flatMap_map, flatMap_filter]
  simp only [routeLabels, builtInLabels_eq, histogramLines_eq documented kRequestDuration _ isLadder_latency,
    decide_eq_true_eq, ite_not]
  rfl

theorem write_familyBlock {entry : Bytes × MetricFamily} (sound : entry.2.Sound) :
    familyLines library entry.1 entry.2 = write (familyBlock library entry).lines := by
  have texts : ∀ sample ∈ entry.2.samples, sample.1 = labelsText (Exposition.parseLabels sample.1) := by
    intro sample member
    exact (sound.rendered sample.1 (List.mem_map_of_mem member)).parseLabels.2
  rw [write_block, familyLines]
  congr 1
  by_cases histogram : entry.2.kind = .histogram
  · rw [familyBlock, if_neg (not_not.mpr histogram), List.map_flatMap, List.flatMap_map, Exposition.write_flatMap]
    apply List.flatMap_congr
    rintro ⟨text, sample⟩ member
    dsimp only
    rw [if_neg (not_not.mpr histogram)]
    have lines :=
      histogramLines_eq documented entry.1 (Exposition.parseLabels text) (sound.ladder histogram) sample.bucketCounts
      sample.value sample.count
    rwa [← texts _ member] at lines
  · rw [familyBlock, if_pos histogram, List.map_map, Exposition.write_map]
    apply List.flatMap_congr
    rintro ⟨text, sample⟩ member
    dsimp only
    rw [if_pos histogram]
    have line := plainSample_eq entry.1 (formatNumber library sample.value) (Exposition.parseLabels text)
    rwa [← texts _ member] at line

/-- The exposition is the text of the families. -/
theorem expose_eq {registry : MetricsRegistry} (enabled : registry.options.enabled = true) (sound : registry.Sound) :
    registry.expose library = write (Exposition.linesOfBlocks (registry.blocks library)) := by
  have families : (registry.families.flatMap fun (name, family) => familyLines library name family) =
      write (Exposition.linesOfBlocks (registry.families.map (familyBlock library))) := by
    rw [Exposition.linesOfBlocks, List.flatMap_map, Exposition.write_flatMap]
    apply List.flatMap_congr
    intro entry member
    exact write_familyBlock documented (sound.sound entry member)
  have unfolded : write (Exposition.linesOfBlocks (registry.blocks library)) =
      registry.counterFamily kRequestsTotal kRequestsTotalHelp RouteStats.requests ++
        (registry.counterFamily kRequestsSuccess kRequestsSuccessHelp RouteStats.success ++
          (registry.counterFamily kRequestsFailure kRequestsFailureHelp RouteStats.failure ++
            (write (registry.durationBlock library).lines ++ (write registry.activeBlock.lines ++
              (write registry.droppedBlock.lines ++
                write (Exposition.linesOfBlocks (registry.families.map (familyBlock library)))))))) := by
    simp only [blocks, Exposition.linesOfBlocks, List.flatMap_append, List.flatMap_cons, List.flatMap_nil, List.append_nil,
      Exposition.write_append, write_counterBlock, List.append_assoc]
  rw [unfolded, ← families, ← write_durationBlock documented, ← write_activeBlock, ← write_droppedBlock, expose, enabled]
  simp only [Bool.not_true, Bool.false_eq_true, ↓reduceIte, List.append_assoc]

end Documented

/-! ## The families are sound -/

section Sound

theorem isName_labels : ∀ name ∈ [kServiceLabel, kMethodLabel, kRouteLabel, ascii "metric"], Exposition.IsName name := by
  simp only [List.forall_mem_cons]
  exact ⟨⟨by decide, by decide⟩, ⟨by decide, by decide⟩, ⟨by decide, by decide⟩, ⟨by decide, by decide⟩, nofun⟩

theorem isName_reserved : ∀ name ∈ reservedNames, Exposition.IsName name := by
  have valid : ∀ name ∈ reservedNames, validName name true = true := by decide
  exact fun name member => isName_of_validName (valid name member)

theorem newline_notMem_kind (kind : Kind) : newline ∉ kindText kind := by
  cases kind <;> decide

/-- The labels of a built-in series are told apart by their values. -/
theorem eq_of_sameLabels_builtIn {registry : MetricsRegistry} (names : List Bytes)
    (distinct : (kServiceLabel :: names).Nodup)
    {labels labels' : MetricLabels} (named : labels.map Prod.fst = names) (named' : labels'.map Prod.fst = names)
    (same : SameLabels (registry.builtInSet labels) (registry.builtInSet labels')) : labels = labels' := by
  subst named
  have names : (registry.builtInSet labels).map Prod.fst = (registry.builtInSet labels').map Prod.fst := by
    rw [builtInSet, builtInSet, List.map_cons, List.map_cons, named']
  exact (List.cons.inj (Exposition.eq_of_sameLabels names distinct same)).2

theorem isName_builtIn {registry : MetricsRegistry} {labels : MetricLabels}
    (named : ∀ label ∈ labels, Exposition.IsName label.1) :
    ∀ label ∈ registry.builtInSet labels, Exposition.IsName label.1 :=
  List.forall_mem_cons.mpr ⟨isName_labels _ (by simp), named⟩

theorem isName_routeSet (registry : MetricsRegistry) (key : RouteKey) :
    ∀ label ∈ registry.routeSet key, Exposition.IsName label.1 := by
  apply isName_builtIn
  simp only [List.forall_mem_cons]
  exact ⟨isName_labels _ (by simp), isName_labels _ (by simp), nofun⟩

theorem eq_of_sameLabels_route {registry : MetricsRegistry} {key key' : RouteKey}
    (same : SameLabels (registry.routeSet key) (registry.routeSet key')) : key = key' := by
  have labels := eq_of_sameLabels_builtIn [kMethodLabel, kRouteLabel] (by decide) rfl rfl same
  simp only [List.cons.injEq, Prod.mk.injEq, true_and, and_true] at labels
  exact Prod.ext labels.1 labels.2

/-- The routes have different keys. -/
theorem routes_differ {registry : MetricsRegistry} (sound : registry.Sound) :
    registry.routes.Pairwise fun first second => ¬ SameLabels (registry.routeSet first.1) (registry.routeSet second.1) := by
  apply (List.pairwise_map.mp sound.routes).imp
  intro first second below same
  exact absurd (eq_of_sameLabels_route same) (ne_of_lt below)

theorem sound_counterBlock {registry : MetricsRegistry} (sound : registry.Sound) {name : Bytes}
    (named : Exposition.IsName name)
    (help : Bytes) (field : RouteStats → ℕ) : (registry.counterBlock name help field).Sound := by
  refine ⟨named, newline_notMem_kind .counter, ?_, ?_, ?_⟩
  · intro sample member
    obtain ⟨entry, _, rfl⟩ := List.mem_map.mp member
    exact .inl rfl
  · intro sample member
    obtain ⟨entry, _, rfl⟩ := List.mem_map.mp member
    exact ⟨isName_routeSet registry entry.1, newline_notMem_decimal _⟩
  · exact List.pairwise_map.mpr ((routes_differ sound).imp fun differ repeats => differ repeats.2)

theorem sound_activeBlock {registry : MetricsRegistry} (sound : registry.Sound) : registry.activeBlock.Sound := by
  refine ⟨isName_reserved kRequestsActive (by simp [reservedNames]), newline_notMem_kind .gauge, ?_, ?_, ?_⟩
  · intro sample member
    obtain ⟨entry, _, rfl⟩ := List.mem_map.mp member
    exact .inl rfl
  · intro sample member
    obtain ⟨entry, _, rfl⟩ := List.mem_map.mp member
    exact ⟨isName_builtIn (List.forall_mem_singleton.mpr (isName_labels _ (by simp))), newline_notMem_signed _⟩
  · refine List.pairwise_map.mpr ((List.pairwise_map.mp sound.inFlight).imp ?_)
    intro first second below repeats
    have labels := eq_of_sameLabels_builtIn [kMethodLabel] (by decide) rfl rfl repeats.2
    simp only [List.cons.injEq, Prod.mk.injEq, true_and, and_true] at labels
    exact absurd labels (ne_of_lt below)

theorem sound_droppedBlock {registry : MetricsRegistry} (sound : registry.Sound) : registry.droppedBlock.Sound := by
  refine ⟨isName_reserved kObservationsDropped (by simp [reservedNames]), newline_notMem_kind .counter, ?_, ?_, ?_⟩
  · intro sample member
    obtain rfl | later := List.mem_cons.mp member
    · exact .inl rfl
    · obtain ⟨entry, _, rfl⟩ := List.mem_map.mp later
      exact .inl rfl
  · intro sample member
    obtain rfl | later := List.mem_cons.mp member
    · exact ⟨isName_builtIn nofun, newline_notMem_decimal _⟩
    · obtain ⟨entry, _, rfl⟩ := List.mem_map.mp later
      exact ⟨isName_builtIn (List.forall_mem_singleton.mpr (isName_labels _ (by simp))), newline_notMem_decimal _⟩
  · refine List.pairwise_cons.mpr ⟨?_, List.pairwise_map.mpr ?_⟩
    · -- The total has a label less than the attributions.
      intro sample member repeats
      obtain ⟨entry, _, rfl⟩ := List.mem_map.mp member
      have extra := repeats.2.2 (List.mem_cons_of_mem _ List.mem_cons_self)
      have same := congrArg Prod.fst (List.mem_singleton.mp extra)
      exact absurd same (by simp only; decide)
    · refine ((List.pairwise_map.mp sound.families).filter _).imp ?_
      intro first second below repeats
      have labels := eq_of_sameLabels_builtIn [ascii "metric"] (by decide) rfl rfl repeats.2
      simp only [List.cons.injEq, Prod.mk.injEq, true_and, and_true] at labels
      exact absurd labels (ne_of_lt below)

/-- A family of series that are sound and differ is sound. -/
theorem sound_histogram {name help : Bytes} (named : Exposition.IsName name) {all : List Series}
    (sound : ∀ series ∈ all, series.Sound ∧ series.Plain)
    (differ : all.Pairwise fun first second => ¬ SameLabels first.labels second.labels) :
    Block.Sound ⟨(name, kindText .histogram), help, all.flatMap (Series.samples name)⟩ := by
  refine ⟨named, newline_notMem_kind .histogram, ?_, ?_,
    Exposition.distinct_series (fun series member => (sound series member).1) differ name⟩
  · intro sample member
    obtain ⟨series, _, inside⟩ := List.mem_flatMap.mp member
    exact Series.owns_samples inside
  · intro sample member
    obtain ⟨series, known, inside⟩ := List.mem_flatMap.mp member
    exact (sound series known).2.samples sample inside

variable {library : NumberText} (documented : library.Documented)

include documented

theorem plain_series {labels : MetricLabels} (named : ∀ label ∈ labels, Exposition.IsName label.1) (buckets : List Binary64)
    (counts : List ℕ) (sum : Binary64) (count : ℕ) : (histogramSeries library labels buckets counts sum count).Plain := by
  refine ⟨named, ?_, newline_notMem_formatNumber documented sum, newline_notMem_decimal count⟩
  intro bound member
  obtain inside | last := List.mem_append.mp member
  · obtain ⟨entry, _, rfl⟩ := List.mem_map.mp inside
    exact newline_notMem_decimal _
  · rw [List.mem_singleton.mp last]
    exact newline_notMem_decimal count

theorem sound_durationBlock {registry : MetricsRegistry} (sound : registry.Sound) :
    (registry.durationBlock library).Sound := by
  apply sound_histogram (isName_reserved kRequestDuration (by simp [reservedNames]))
  · intro series member
    obtain ⟨entry, _, rfl⟩ := List.mem_map.mp member
    have clean : ∀ label ∈ registry.routeSet entry.1, label.1 ≠ ascii "le" := by
      intro label inside
      have known : label.1 ∈ [kServiceLabel, kMethodLabel, kRouteLabel] := List.mem_map_of_mem (f := Prod.fst) inside
      have other : ∀ name ∈ [kServiceLabel, kMethodLabel, kRouteLabel], name ≠ ascii "le" := by decide
      exact other label.1 known
    exact ⟨sound_series documented clean isLadder_latency _ _ _,
      plain_series documented (isName_routeSet registry entry.1) _ _ _ _⟩
  · exact List.pairwise_map.mpr ((routes_differ sound).filter _)

theorem sound_familyBlock {entry : Bytes × MetricFamily} (valid : validName entry.1 true = true) (sound : entry.2.Sound) :
    (familyBlock library entry).Sound := by
  have named := isName_of_validName valid
  have parsed (sample : Bytes × Sample) (member : sample ∈ entry.2.samples) :=
    (sound.rendered sample.1 (List.mem_map_of_mem member)).parseLabels
  have differ : entry.2.samples.Pairwise fun first second =>
      ¬ SameLabels (Exposition.parseLabels first.1) (Exposition.parseLabels second.1) := by
    apply (List.pairwise_map.mp sound.ordered).imp_of_mem
    intro first second member member' below same
    have labels := (parsed first member).1.eq_of_same (parsed second member').1 same
    have texts : first.1 = second.1 := by rw [(parsed first member).2, (parsed second member').2, labels]
    exact absurd texts (ne_of_lt below)
  by_cases histogram : entry.2.kind = .histogram
  · have isHistogram : familyBlock library entry =
        ⟨(entry.1, kindText .histogram), entry.2.help,
          (entry.2.samples.map (sampleSeries library entry.2)).flatMap (Series.samples entry.1)⟩ := by
      rw [familyBlock, if_neg (not_not.mpr histogram), histogram]
    rw [isHistogram]
    apply sound_histogram named
    · intro series member
      obtain ⟨sample, inside, rfl⟩ := List.mem_map.mp member
      have labels := (parsed sample inside).1
      exact ⟨sound_series documented (labels.bucket (decide_eq_true histogram)) (sound.ladder histogram) _ _ _,
        plain_series documented labels.named _ _ _ _⟩
    · exact List.pairwise_map.mpr differ
  · rw [familyBlock, if_pos histogram]
    refine ⟨named, newline_notMem_kind entry.2.kind, ?_, ?_, ?_⟩
    · intro sample member
      obtain ⟨old, _, rfl⟩ := List.mem_map.mp member
      exact .inl rfl
    · intro sample member
      obtain ⟨old, inside, rfl⟩ := List.mem_map.mp member
      exact ⟨(parsed old inside).1.named, newline_notMem_formatNumber documented _⟩
    · exact List.pairwise_map.mpr (differ.imp fun differ repeats => differ repeats.2)

end Sound

/-! ## The scrape -/

theorem families_eq (registry : MetricsRegistry) (library : NumberText) :
    (registry.blocks library).map Block.family = registry.exposed := by
  rw [blocks, List.map_append, List.map_map, exposed]
  rfl

/-- Every family is exposed under a name of its own. -/
theorem names_distinct {registry : MetricsRegistry} (sound : registry.Sound) : (registry.exposed.map Prod.fst).Nodup := by
  have builtIn : (builtIns.map Prod.fst).Nodup := by decide
  have reserved : ∀ name ∈ builtIns.map Prod.fst, name ∈ reservedNames := by decide
  have names :
      (registry.families.map fun entry => (entry.1, kindText entry.2.kind)).map Prod.fst =
        registry.families.map Prod.fst := by
    rw [List.map_map]
    rfl
  rw [exposed, List.map_append, names]
  refine List.nodup_append.mpr ⟨builtIn, sound.families.imp ne_of_lt, ?_⟩
  rintro name member other known rfl
  obtain ⟨entry, inside, rfl⟩ := List.mem_map.mp known
  exact (sound.named entry inside).2 (reserved _ member)

/-- The exposition of a registry whose names are clear. -/
theorem wellFormed_expose {library : NumberText} (documented : library.Documented) {registry : MetricsRegistry}
    (sound : registry.Sound) (clear : registry.Clear) :
    ∃ lines, Exposition.read (registry.expose library) = some lines ∧ Exposition.WellFormed lines := by
  cases enabled : registry.options.enabled with
  | false =>
    have silent : registry.expose library = [] := by simp [expose, enabled]
    rw [silent]
    exact ⟨[], rfl, ⟨.nil, .nil, trivial⟩⟩
  | true =>
    have apart : registry.exposed.Pairwise Exposition.Apart := by
      apply (List.pairwise_map.mp (names_distinct sound)).imp_of_mem
      intro first second member member' names
      exact Exposition.apart_of_not_clash names (clear first member second member') (clear second member' first member)
    rw [← families_eq registry library] at apart
    rw [expose_eq documented enabled sound]
    refine ⟨_, Exposition.wellFormed_blocks ?_ (List.pairwise_map.mp apart)⟩
    intro block member
    obtain builtIn | family := List.mem_append.mp member
    · simp only [List.mem_cons, List.not_mem_nil, or_false] at builtIn
      obtain rfl | rfl | rfl | rfl | rfl | rfl := builtIn
      · exact sound_counterBlock sound (isName_reserved _ (by simp [reservedNames])) _ _
      · exact sound_counterBlock sound (isName_reserved _ (by simp [reservedNames])) _ _
      · exact sound_counterBlock sound (isName_reserved _ (by simp [reservedNames])) _ _
      · exact sound_durationBlock documented sound
      · exact sound_activeBlock sound
      · exact sound_droppedBlock sound
    · obtain ⟨entry, inside, rfl⟩ := List.mem_map.mp family
      exact sound_familyBlock documented (sound.named entry inside).1 (sound.sound entry inside)

end MetricsRegistry

/-- Every scrape of a run whose registrations keep clear of the names that histograms add is accepted. -/
theorem scrape_accepted {library : NumberText} (documented : library.Documented) {options : MetricsOptions}
    {registry : MetricsRegistry} (created : MetricsRegistry.create options = .ok registry) {calls : List Call}
    {session : Session}
    (ran : Session.run ⟨registry, []⟩ calls = some session) (keeps : Session.KeepsClear ⟨registry, []⟩ calls) :
    ∃ lines, Exposition.read (session.registry.expose library) = some lines ∧ Exposition.WellFormed lines :=
  MetricsRegistry.wellFormed_expose documented (Session.run_sound ran (MetricsRegistry.sound_create created))
    (Session.run_clear ran (MetricsRegistry.clear_create created) keeps)

/-! ## Runs on fixed calls -/

def one : Binary64 := ⟨0x3FF0000000000000⟩

/-- Conversions that are those of the C library on zero and one. -/
def someNumbers : NumberText where
  fixed value := if value = ⟨0⟩ then ascii "0.000000" else if value = one then ascii "1.000000" else []
  general _ value := 'e'.toUInt8 :: decimal value.bits.toNat
  strtod text :=
    if text = ascii "0" then ⟨0⟩
    else if text = ascii "1" then one
    else ⟨UInt64.ofNat ((Decimal.read text.tail).getD 0)⟩

theorem length_decimal_le {number width : ℕ} (some_ : 0 < width) (few : number < 10 ^ width) :
    (decimal number).length ≤ width := by
  have padded := congrArg List.length (Decimal.zeroPadded_eq some_ few)
  rw [Decimal.zeroPadded, List.length_append, List.length_replicate, Decimal.length_padded] at padded
  omega

theorem someNumbers_documented : someNumbers.Documented := by
  have digits : ∀ c, Decimal.isDigit c = true → c ∈ plainBytes := forall_byte (by decide +kernel)
  refine ⟨?_, ?_, ?_⟩
  · intro value _ c member
    rw [someNumbers] at member
    dsimp only at member
    split_ifs at member
    · have plain : ∀ c ∈ ascii "0.000000", c ∈ plainBytes := by decide
      exact plain c member
    · have plain : ∀ c ∈ ascii "1.000000", c ∈ plainBytes := by decide
      exact plain c member
    · cases member
  · intro _ value _ c member
    obtain rfl | digit := List.mem_cons.mp member
    · decide
    · exact digits c (Decimal.isDigit_of_mem_decimal c digit)
  · intro value finite
    have few : value.bits.toNat < 10 ^ 20 := by
      have bounded := value.bits.toNat_lt
      omega
    have short := length_decimal_le (by decide) few
    obtain ⟨number, isNumber⟩ := Option.isSome_iff_exists.mp finite
    constructor
    · rw [fits, someNumbers]
      dsimp only
      rw [List.length_cons, Bool.and_eq_true, decide_eq_true_eq, decide_eq_true_eq]
      omega
    · have read : someNumbers.strtod (someNumbers.general 17 value) = value := by
        have tail : Decimal.read (decimal value.bits.toNat) = some value.bits.toNat := Decimal.read_decimal _
        have notZero : 'e'.toUInt8 :: decimal value.bits.toNat ≠ ascii "0" :=
          fun same => absurd (List.cons.inj same).1 (by decide)
        have notOne : 'e'.toUInt8 :: decimal value.bits.toNat ≠ ascii "1" :=
          fun same => absurd (List.cons.inj same).1 (by decide)
        rw [someNumbers]
        dsimp only
        rw [if_neg notZero, if_neg notOne, List.tail_cons, tail, Option.getD_some, UInt64.ofNat_toNat]
      rw [read, Binary64.equals, isNumber]
      simp

def todo : MetricsOptions := { enabled := true, serviceName := ascii "todo" }

/-- A histogram and a counter with an event each. -/
def ordersCalls : List Call :=
  [.newHistogram (ascii "wait") [] [one], .newCounter (ascii "orders_total") (ascii "Orders"),
    .observe (some (ascii "wait")) [(ascii "queue", ascii "a\"b")] one, .increment (some (ascii "orders_total")) [] one]

theorem scrape_accepted_orders : ∃ session, Session.run ⟨{ options := todo }, []⟩ ordersCalls = some session ∧
    ∃ lines, Exposition.read (session.registry.expose someNumbers) = some lines ∧ Exposition.WellFormed lines := by
  have created : MetricsRegistry.create todo = .ok { options := todo } := rfl
  have went : (Session.run ⟨{ options := todo }, []⟩ ordersCalls).isSome := by decide +kernel
  obtain ⟨session, ran⟩ := Option.isSome_iff_exists.mp went
  exact ⟨session, ran, scrape_accepted someNumbers_documented created ran (by decide +kernel)⟩

/-- The histogram's sum and the counter are one series. -/
def clashingCalls : List Call :=
  [.newHistogram (ascii "x") [] [one], .newCounter (ascii "x_sum") [], .declare .histogram (some (ascii "x")) [],
    .declare .counter (some (ascii "x_sum")) []]

/-- A counter may be registered under the name that a histogram adds, and the scrape has its sample twice. -/
theorem scrape_refused :
    ∃ library, library.Documented ∧ ∃ session, Session.run ⟨{ options := todo }, []⟩ clashingCalls = some session ∧
    ¬ ∃ lines, Exposition.read (session.registry.expose library) = some lines ∧ Exposition.WellFormed lines := by
  have repeated : ((Session.run ⟨{ options := todo }, []⟩ clashingCalls).map fun session =>
      (Exposition.read (session.registry.expose someNumbers)).any fun lines =>
        decide (lines.Pairwise fun first second => ¬ Exposition.Repeats first second)) = some false := by
    decide +kernel
  obtain ⟨session, ran, repeated⟩ := Option.map_eq_some_iff.mp repeated
  refine ⟨someNumbers, someNumbers_documented, session, ran, ?_⟩
  rintro ⟨lines, isRead, wellFormed⟩
  simp [isRead, wellFormed.samples] at repeated

end OpalCpp.Server.Metrics
