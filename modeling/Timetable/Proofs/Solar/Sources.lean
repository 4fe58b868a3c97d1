import Timetable.Proofs.Solar.Known

/-!
Where the times of the sun come from, apart from what was computed before.

`SolarSources` holds all that can be set: a place, an almanac, and times that are given. It says by
itself which times a date has (`SolarSources.times`). All that only asks leaves the settings alone
and keeps at most what the almanac gives at the place (`SolarHours.Grows.asking`).

A state of knowledge follows its sources if it was set like them and keeps nothing but what the
almanac gives at the place (`SolarHours.Follows`). Such a state answers what the sources say
(`Follows.known_eq`). What grows out of it follows the same sources (`Follows.grows`); a change of
the settings leaves one that follows the sources with the same change.

Moving to a place that equals the one before keeps what was computed. Equal places need not be the
same, as their coordinates may differ in the sign of a zero. So an almanac is asked to have the same
times at equal places (`Almanac.RespectsPlaces`), and a state is compared with its sources as far as
such an almanac can tell (`Location.Alike`).
-/

namespace Timetable

variable {Zone : Type}

/-- At equal places the almanac has the same times. -/
def Almanac.RespectsPlaces [BEq Zone] (almanac : Almanac Zone) : Prop :=
  ∀ place other : Location Zone, (place == other) = true →
    ∀ date, almanac.times date place = almanac.times date other

/-! ### Places that cannot be told apart -/

namespace Location

variable [BEq Zone]

/-- Two places, or the lack of one, that no almanac tells apart if it has the same times at equal
places. -/
def Alike (a b : Option (Location Zone)) : Prop :=
  ∀ almanac : Almanac Zone, almanac.RespectsPlaces → ∀ date,
    a.map (almanac.times date) = b.map (almanac.times date)

theorem Alike.refl (a : Option (Location Zone)) : Alike a a := fun _ _ _ => rfl

theorem Alike.symm {a b : Option (Location Zone)} (h : Alike a b) : Alike b a :=
  fun almanac hrespects date => (h almanac hrespects date).symm

theorem Alike.trans {a b c : Option (Location Zone)} (hab : Alike a b) (hbc : Alike b c) :
    Alike a c :=
  fun almanac hrespects date =>
    (hab almanac hrespects date).trans (hbc almanac hrespects date)

theorem alike_of_beq {a b : Option (Location Zone)} (h : (a == b) = true) : Alike a b := by
  intro almanac hrespects date
  cases a with
  | none =>
    cases b with
    | none => rfl
    | some other => simp at h
  | some place =>
    cases b with
    | none => simp at h
    | some other => exact congrArg some (hrespects place other h date)

/-- Where the one is a place, the other is a place with the same times. -/
theorem Alike.exists_place {place : Location Zone} {b : Option (Location Zone)}
    (h : Alike (some place) b) {almanac : Almanac Zone} (hrespects : almanac.RespectsPlaces) :
    ∃ other, b = some other ∧
      ∀ date, almanac.times date place = almanac.times date other := by
  cases b with
  | none => cases h almanac hrespects default
  | some other => exact ⟨other, rfl, fun date => Option.some.inj (h almanac hrespects date)⟩

theorem Alike.eq_none {b : Option (Location Zone)} (h : Alike none b) {almanac : Almanac Zone}
    (hrespects : almanac.RespectsPlaces) : b = none :=
  Option.map_eq_none_iff.1 (h almanac hrespects default).symm

end Location

/-! ### Sources -/

/-- All that can be set of where the times of the sun come from. -/
structure SolarSources (Zone : Type) where
  location : Option (Location Zone) := none
  almanac : Almanac Zone
  /-- Times that are given for a date. -/
  overrides : DateTable SolarRecord := {}
  /-- Times that are given for every date without an override. -/
  default : Option SolarRecord := none

namespace SolarSources

/-- The times of a date: those given for it or for every date, and else those of the almanac. -/
def times (sources : SolarSources Zone) (date : Date) : Except SolarError SolarRecord :=
  match sources.overrides[date]?.or sources.default with
  | some record => .ok record
  | none =>
    match sources.location with
    | none => .error .notConfigured
    | some location =>
      match sources.almanac.times date location with
      | none => .error (.unavailable date)
      | some record => .ok record

/-- Whether the almanac gives certain times for a date at the place. -/
def Computes (sources : SolarSources Zone) (date : Date) (record : SolarRecord) : Prop :=
  ∃ location, sources.location = some location ∧
    sources.almanac.times date location = some record

/-- What is known with these sources before anything was asked. -/
def fresh (sources : SolarSources Zone) : SolarHours Zone where
  location := sources.location
  almanac := sources.almanac
  overrides := sources.overrides
  default := sources.default

theorem Computes.moved [BEq Zone] {sources : SolarSources Zone} {date : Date} {record : SolarRecord}
    (h : sources.Computes date record) (hrespects : sources.almanac.RespectsPlaces)
    {location : Option (Location Zone)} (halike : Location.Alike sources.location location) :
    { sources with location }.Computes date record := by
  obtain ⟨place, hplace, htimes⟩ := h
  rw [hplace] at halike
  obtain ⟨other, hother, hsame⟩ := halike.exists_place hrespects
  exact ⟨other, hother, (hsame date).symm.trans htimes⟩

end SolarSources

namespace SolarHours

/-- The settings of a state. -/
def sources (hours : SolarHours Zone) : SolarSources Zone where
  location := hours.location
  almanac := hours.almanac
  overrides := hours.overrides
  default := hours.default

/-! ### What questions leave behind -/

/-- A later state with the same settings: what was kept still is, and what is new are times that the
almanac gives at the place. -/
structure Grows (before after : SolarHours Zone) : Prop where
  sources_eq : after.sources = before.sources
  kept : ∀ (date : Date) (record : SolarRecord), before.cache[date]? = some record →
    after.cache[date]? = some record
  gained : ∀ (date : Date) (record : SolarRecord), after.cache[date]? = some record →
    before.cache[date]? = some record ∨ before.sources.Computes date record

namespace Grows

variable {a b c : SolarHours Zone}

theorem refl (hours : SolarHours Zone) : hours.Grows hours := ⟨rfl, fun _ _ => id, fun _ _ => .inl⟩

theorem trans (hab : a.Grows b) (hbc : b.Grows c) : a.Grows c where
  sources_eq := hbc.sources_eq.trans hab.sources_eq
  kept date record hcached := hbc.kept date record (hab.kept date record hcached)
  gained date record hcached := by
    rcases hbc.gained date record hcached with hbefore | hcomputed
    · exact hab.gained date record hbefore
    · exact .inr (hab.sources_eq ▸ hcomputed)

/-- Times that the almanac gives for a date without any. -/
theorem insert {hours : SolarHours Zone} {date : Date} {record : SolarRecord}
    (hnone : hours.cache[date]? = none) (hrecord : hours.sources.Computes date record) :
    hours.Grows { hours with cache := hours.cache.insert date record } where
  sources_eq := rfl
  kept other known hknown := by
    have hne : date ≠ other := by
      rintro rfl
      rw [hnone] at hknown
      cases hknown
    rw [Std.TreeMap.getElem?_insert, if_neg fun hcmp => hne (Std.LawfulEqOrd.eq_of_compare hcmp)]
    exact hknown
  gained other known hknown := by
    rw [Std.TreeMap.getElem?_insert] at hknown
    split at hknown
    · rename_i hcmp
      obtain rfl := Std.LawfulEqOrd.eq_of_compare hcmp
      obtain rfl := Option.some.inj hknown
      exact .inr hrecord
    · exact .inl hknown

theorem noteCall (hours : SolarHours Zone) (date : Date) : hours.Grows (hours.noteCall date) := by
  unfold SolarHours.noteCall
  split
  · exact ⟨rfl, fun _ _ => id, fun _ _ => .inl⟩
  · exact refl hours

/-- A question keeps at most what the almanac gives at the place. -/
theorem answer (hours : SolarHours Zone) (date : Date) : hours.Grows (hours.answer date).2 := by
  unfold SolarHours.answer
  split
  · exact refl hours
  · rename_i hnone
    split
    · exact refl hours
    · rename_i location hlocation
      have hnoted := noteCall hours date
      dsimp only
      split
      · exact hnoted
      · rename_i record hrecord
        have hcache : (hours.noteCall date).cache[date]? = none := by
          unfold SolarHours.noteCall; split <;> exact (Option.or_eq_none_iff.1 hnone).2
        refine hnoted.trans (insert hcache ?_)
        rw [hnoted.sources_eq]
        exact ⟨location, hlocation, hrecord⟩

theorem askAll (hours : SolarHours Zone) (dates : List Date) : hours.Grows (hours.askAll dates) :=
  hours.related_askAll refl trans answer dates

theorem asking {α : Type} {action : StateM (SolarHours Zone) α} (haction : Asking action)
    (hours : SolarHours Zone) : hours.Grows (action.run hours).2 :=
  haction.related refl trans answer hours

end Grows

/-! ### A place for what is kept -/

/-- Times that were computed are kept only for a place. -/
def KeepsAtPlace (hours : SolarHours Zone) : Prop :=
  ∀ (date : Date) (record : SolarRecord), hours.cache[date]? = some record →
    hours.location.isSome = true

theorem keepsAtPlace_of_emptyCache {hours : SolarHours Zone} (h : hours.cache = {}) :
    hours.KeepsAtPlace := by
  intro date record hcached
  rw [h, Std.TreeMap.getElem?_emptyc] at hcached
  cases hcached

theorem KeepsAtPlace.grows {before after : SolarHours Zone} (h : before.KeepsAtPlace)
    (hgrows : before.Grows after) : after.KeepsAtPlace := by
  intro date record hcached
  rw [show after.location = before.location from
    congrArg SolarSources.location hgrows.sources_eq]
  rcases hgrows.gained date record hcached with hkept | ⟨location, hlocation, -⟩
  · exact h date record hkept
  · exact Option.isSome_of_eq_some hlocation

theorem KeepsAtPlace.setLocation [BEq Zone] {hours : SolarHours Zone} (h : hours.KeepsAtPlace)
    (location : Option (Location Zone)) : (hours.setLocation location).KeepsAtPlace := by
  unfold SolarHours.setLocation
  split
  · exact h
  · exact keepsAtPlace_of_emptyCache rfl

/-- Nothing says what the times of the sun are: there is no place, and none are given. -/
structure Unset (hours : SolarHours Zone) : Prop where
  location_eq : hours.location = none
  default_eq : hours.default = none
  overrides_eq : ∀ date : Date, hours.overrides[date]? = none

theorem unset_iff {hours : SolarHours Zone} :
    hours.Unset ↔ hours.isConfigured = false := by
  have hoverrides : hours.overrides.isEmpty = true ↔
      ∀ date : Date, hours.overrides[date]? = none := by
    simp only [Std.TreeMap.isEmpty_iff_forall_not_mem, Std.TreeMap.mem_iff_isSome_getElem?,
      Bool.not_eq_true, Option.isSome_eq_false_iff, Option.isNone_iff_eq_none]
  simp only [isConfigured, Bool.or_eq_false_iff, Option.isSome_eq_false_iff,
    Option.isNone_iff_eq_none, Bool.not_eq_false', hoverrides, and_assoc]
  exact ⟨fun h => ⟨h.1, h.2, h.3⟩, fun h => ⟨h.1, h.2.1, h.2.2⟩⟩

/-- Where the times of some date are known, there is a source of times. -/
theorem isConfigured_of_known {hours : SolarHours Zone} (h : hours.KeepsAtPlace) {date : Date}
    {record : SolarRecord} (hknown : hours.known date = .ok record) :
    hours.isConfigured = true := by
  cases hconfigured : hours.isConfigured with
  | true => rfl
  | false =>
    have hunset := unset_iff.2 hconfigured
    have hcached : hours.cache[date]? = none := by
      refine Option.eq_none_iff_forall_ne_some.2 fun kept hkept => ?_
      have hplace := h date kept hkept
      rw [hunset.location_eq] at hplace
      cases hplace
    rw [known, SolarHours.answer, given?, hunset.overrides_eq, hunset.default_eq, hcached,
      hunset.location_eq] at hknown
    cases hknown

/-! ### States and their sources -/

variable [BEq Zone]

/-- A state that was set like its sources and keeps only what they compute. -/
structure Follows (hours : SolarHours Zone) (sources : SolarSources Zone) : Prop where
  location : Location.Alike hours.location sources.location
  almanac : hours.almanac = sources.almanac
  overrides : hours.overrides = sources.overrides
  default : hours.default = sources.default
  respects : sources.almanac.RespectsPlaces
  cached : ∀ date record, hours.cache[date]? = some record → sources.Computes date record

theorem follows_fresh {sources : SolarSources Zone} (h : sources.almanac.RespectsPlaces) :
    sources.fresh.Follows sources where
  location := .refl _
  almanac := rfl
  overrides := rfl
  default := rfl
  respects := h
  cached date record hcached := by
    rw [show sources.fresh.cache[date]? = none from Std.TreeMap.getElem?_emptyc] at hcached
    cases hcached

namespace Follows

variable {hours other : SolarHours Zone} {sources : SolarSources Zone}

/-- A state that follows any sources follows its own settings. -/
theorem own (h : hours.Follows sources) : hours.Follows hours.sources where
  location := .refl _
  almanac := rfl
  overrides := rfl
  default := rfl
  respects := by
    rw [SolarHours.sources, h.almanac]
    exact h.respects
  cached date record hcached := by
    have hmoved := (h.cached date record hcached).moved h.respects h.location.symm
    unfold SolarHours.sources
    rw [h.almanac]
    exact hmoved

theorem location_eq_none_iff (h : hours.Follows sources) :
    hours.location = none ↔ sources.location = none := by
  have halike := h.location
  constructor
  · intro hnone
    rw [hnone] at halike
    exact halike.eq_none h.respects
  · intro hnone
    rw [hnone] at halike
    exact halike.symm.eq_none h.respects

theorem given?_eq (h : hours.Follows sources) (date : Date) :
    hours.given? date = sources.overrides[date]?.or sources.default := by
  rw [given?, h.overrides, h.default]

/-- A state answers what its sources say. -/
theorem known_eq (h : hours.Follows sources) (date : Date) :
    hours.known date = sources.times date := by
  unfold known SolarHours.answer SolarSources.times
  rw [h.given?_eq date]
  cases sources.overrides[date]?.or sources.default with
  | some record => rfl
  | none =>
    -- What is kept is what the almanac gives, and then there is a place.
    cases hcache : hours.cache[date]? with
    | some record =>
      obtain ⟨location, hlocation, hcomputed⟩ := h.cached date record hcache
      simp only [Option.none_or, hlocation, hcomputed]
    | none =>
      have halike := h.location
      cases hplace : hours.location with
      | none => simp only [Option.none_or, h.location_eq_none_iff.1 hplace]
      | some place =>
        rw [hplace] at halike
        obtain ⟨location, hlocation, htimes⟩ := halike.exists_place h.respects
        simp only [Option.none_or, hlocation, h.almanac, htimes]
        cases sources.almanac.times date location <;> rfl

theorem isConfigured_eq (h : hours.Follows sources) :
    hours.isConfigured = sources.fresh.isConfigured := by
  have hlocation : hours.location.isSome = sources.location.isSome := by
    rw [Bool.eq_iff_iff, Option.isSome_iff_ne_none, Option.isSome_iff_ne_none]
    exact not_congr h.location_eq_none_iff
  simp only [isConfigured, SolarSources.fresh, hlocation, h.default, h.overrides]

/-- States with the same sources answer alike. -/
theorem agree (h : hours.Follows sources) (hother : other.Follows sources) : hours.Agree other :=
  ⟨fun date => (h.known_eq date).trans (hother.known_eq date).symm,
    h.isConfigured_eq.trans (hother.isConfigured_eq).symm⟩

/-- Without a place nothing is kept. -/
theorem isEmpty_cache (h : hours.Follows sources) (hplace : sources.location = none) :
    hours.cache.isEmpty = true := by
  refine Std.TreeMap.isEmpty_iff_forall_not_mem.2 fun date hmem => ?_
  obtain ⟨location, hlocation, -⟩ := h.cached date _ (Std.TreeMap.getElem?_eq_some_getElem hmem)
  rw [hplace] at hlocation
  cases hlocation

/-- What was computed can be replaced by anything that the sources compute. -/
theorem withCache (h : hours.Follows sources) {cache : DateTable SolarRecord}
    (hcache : ∀ date record, cache[date]? = some record → sources.Computes date record) :
    { hours with cache }.Follows sources :=
  ⟨h.location, h.almanac, h.overrides, h.default, h.respects, hcache⟩

/-! ### Questions -/

theorem withCalls (h : hours.Follows sources) (calls : List Date) :
    { hours with calls }.Follows sources :=
  ⟨h.location, h.almanac, h.overrides, h.default, h.respects, h.cached⟩

/-- What the state computes is what its sources compute. -/
theorem computes (h : hours.Follows sources) {date : Date} {record : SolarRecord}
    (hcomputed : hours.sources.Computes date record) : sources.Computes date record := by
  obtain ⟨place, hplace, htimes⟩ := hcomputed
  have halike := h.location
  rw [show hours.location = some place from hplace] at halike
  obtain ⟨location, hlocation, hsame⟩ := halike.exists_place h.respects
  refine ⟨location, hlocation, ?_⟩
  rw [← hsame, ← h.almanac]
  exact htimes

theorem grows (h : hours.Follows sources) (hgrows : hours.Grows other) :
    other.Follows sources where
  location := by
    rw [show other.location = hours.location from
      congrArg SolarSources.location hgrows.sources_eq]
    exact h.location
  almanac := (congrArg SolarSources.almanac hgrows.sources_eq).trans h.almanac
  overrides := (congrArg SolarSources.overrides hgrows.sources_eq).trans h.overrides
  default := (congrArg SolarSources.default hgrows.sources_eq).trans h.default
  respects := h.respects
  cached date record hcached :=
    (hgrows.gained date record hcached).elim (h.cached date record) h.computes

/-! ### Changes of the settings -/

theorem clear (h : hours.Follows sources) : hours.clear.Follows sources :=
  h.withCache (follows_fresh h.respects).cached

theorem setOverride (h : hours.Follows sources) (date : Date) (record : SolarRecord) :
    (hours.setOverride date record).Follows
      { sources with overrides := sources.overrides.insert date record } where
  location := h.location
  almanac := h.almanac
  overrides := congrArg (·.insert date record) h.overrides
  default := h.default
  respects := h.respects
  cached := h.cached

theorem removeOverride (h : hours.Follows sources) (date : Date) :
    (hours.removeOverride date).Follows
      { sources with overrides := sources.overrides.erase date } where
  location := h.location
  almanac := h.almanac
  overrides := congrArg (·.erase date) h.overrides
  default := h.default
  respects := h.respects
  cached := h.cached

theorem setDefault (h : hours.Follows sources) (record : Option SolarRecord) :
    (hours.setDefault record).Follows { sources with default := record } where
  location := h.location
  almanac := h.almanac
  overrides := h.overrides
  default := rfl
  respects := h.respects
  cached := h.cached

/-- The new place may equal the old one. Then what was computed is kept, and it is right for the new
place. -/
theorem setLocation (h : hours.Follows sources) (location : Option (Location Zone)) :
    (hours.setLocation location).Follows { sources with location } := by
  unfold SolarHours.setLocation
  split
  · rename_i hbeq
    have halike := Location.alike_of_beq hbeq
    refine ⟨halike, h.almanac, h.overrides, h.default, h.respects, fun date record hcached => ?_⟩
    exact (h.cached date record hcached).moved h.respects (h.location.symm.trans halike)
  · have hnothing := (@follows_fresh _ _ { sources with location } h.respects).cached
    exact ⟨.refl _, h.almanac, h.overrides, h.default, h.respects, hnothing⟩

theorem setAlmanac (h : hours.Follows sources) {almanac : Almanac Zone}
    (hrespects : almanac.RespectsPlaces) :
    (hours.setAlmanac almanac).Follows { sources with almanac } where
  location := h.location
  almanac := rfl
  overrides := h.overrides
  default := h.default
  respects := hrespects
  cached := (@follows_fresh _ _ { sources with almanac } hrespects).cached

end Follows

end SolarHours

end Timetable
