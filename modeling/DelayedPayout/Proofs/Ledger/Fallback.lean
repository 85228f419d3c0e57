import DelayedPayout.Ledger
import DelayedPayout.Proofs.Timeline.Lookup
import Mathlib.Data.List.Induction
import Mathlib.Order.Bounds.Basic

/-!
The fallback address at a height, read off the list of entries that a ledger is built from. Of several
entries for one height the last one counts (`lastValue?`). The address is that of the greatest height up to
the asked one; before the first height, and where that address is null, it is that of the least height
(`FallbackOf`). Main statement: `Ledger.fallback_follows_entries`.
-/

namespace DelayedPayout

/-! ## Lists as timelines -/

section Lists

variable {α : Type} {entries : List (Int × α)} {height : Int} {value : α}

def heightsOf (entries : List (Int × α)) : Set Int := {height | height ∈ entries.map Prod.fst}

/-- The value that a list gives for a height: that of the last entry for it. -/
def lastValue? (entries : List (Int × α)) (height : Int) : Option α :=
  (entries.filter (·.1 = height)).getLast?.map Prod.snd

theorem lastValue?_concat (entries : List (Int × α)) (entry : Int × α) (height : Int) :
    lastValue? (entries ++ [entry]) height =
      if entry.1 = height then some entry.2 else lastValue? entries height := by
  unfold lastValue?
  rw [List.filter_append]
  by_cases h : entry.1 = height
  · simp [h]
  · simp [h]

theorem mem_heightsOf_iff :
    height ∈ heightsOf entries ↔ ∃ value, lastValue? entries height = some value := by
  induction entries using List.reverseRecOn with
  | nil => simp [heightsOf, lastValue?]
  | append_singleton entries entry ih =>
    have hconcat : height ∈ heightsOf (entries ++ [entry]) ↔
        height ∈ heightsOf entries ∨ height = entry.1 := by
      simp [heightsOf]
    rw [hconcat, ih, lastValue?_concat]
    by_cases h : entry.1 = height
    · simp [h]
    · simp [h, Ne.symm h]

theorem mem_heightsOf_congr {entries' : List (Int × α)}
    (h : lastValue? entries height = lastValue? entries' height) :
    height ∈ heightsOf entries ↔ height ∈ heightsOf entries' := by
  rw [mem_heightsOf_iff, mem_heightsOf_iff, h]

/-- A timeline holds the last value of each height, and nothing else. -/
theorem Timeline.mem_ofList_iff :
    (height, value) ∈ (Timeline.ofList entries).entries ↔ lastValue? entries height = some value := by
  induction entries using List.reverseRecOn with
  | nil => simp [ofList, empty, lastValue?]
  | append_singleton entries entry ih =>
    have hset : (ofList (entries ++ [entry])).entries =
        setEntry entry.1 entry.2 (ofList entries).entries := by
      simp [ofList, set]
    rw [hset, mem_setEntry_iff (ofList entries).ascending, ih, lastValue?_concat]
    obtain ⟨start, first⟩ := entry
    by_cases h : start = height
    · simp [h, eq_comm]
    · simp [h, Ne.symm h]

/-- The heights of a timeline are those of the list. -/
theorem Timeline.exists_mem_ofList_iff :
    (∃ value, (height, value) ∈ (Timeline.ofList entries).entries) ↔ height ∈ heightsOf entries := by
  simp only [mem_ofList_iff, mem_heightsOf_iff]

/-- The value at a height is that of the greatest height up to there. -/
theorem Timeline.valueAt?_ofList_eq_some_iff :
    (Timeline.ofList entries).valueAt? height = some value ↔ ∃ start,
      IsGreatest {k ∈ heightsOf entries | k ≤ height} start ∧ lastValue? entries start = some value := by
  rw [valueAt?_eq_some_iff]
  refine exists_congr fun start => ?_
  rw [mem_ofList_iff, and_comm]
  refine and_congr_left fun hlast => ?_
  have hmem : start ∈ heightsOf entries := mem_heightsOf_iff.mpr ⟨value, hlast⟩
  constructor
  · rintro ⟨hle, hnone⟩
    refine ⟨⟨hmem, hle⟩, ?_⟩
    rintro k ⟨hk, hkle⟩
    obtain ⟨other, hother⟩ := exists_mem_ofList_iff.mpr hk
    exact hnone (k, other) hother hkle
  · rintro ⟨⟨_, hle⟩, hupper⟩
    refine ⟨hle, fun entry hentry hentryle => ?_⟩
    exact hupper ⟨exists_mem_ofList_iff.mp ⟨entry.2, hentry⟩, hentryle⟩

/-- The first entry of a timeline is that of the least height. -/
theorem Timeline.head_ofList_eq_iff (hne : (Timeline.ofList entries).entries ≠ []) :
    ((Timeline.ofList entries).entries.head hne).2 = value ↔
      ∃ first, IsLeast (heightsOf entries) first ∧ lastValue? entries first = some value := by
  obtain ⟨head, rest, hentries⟩ := List.exists_cons_of_ne_nil hne
  have hmem : head ∈ (Timeline.ofList entries).entries := hentries ▸ List.mem_cons_self
  have hlast : lastValue? entries head.1 = some head.2 := mem_ofList_iff.mp hmem
  have hleast : IsLeast (heightsOf entries) head.1 := by
    refine ⟨exists_mem_ofList_iff.mp ⟨head.2, hmem⟩, fun k hk => ?_⟩
    obtain ⟨other, hother⟩ := exists_mem_ofList_iff.mpr hk
    have hascending := (Timeline.ofList entries).ascending
    rw [hentries] at hother hascending
    rcases List.mem_cons.mp hother with heq | hrest
    · exact Int.le_of_eq (congrArg Prod.fst heq).symm
    · exact Int.le_of_lt ((List.pairwise_cons.mp hascending).1 _ hrest)
  simp only [hentries, List.head_cons]
  constructor
  · rintro rfl
    exact ⟨head.1, hleast, hlast⟩
  · rintro ⟨first, hfirst, hvalue⟩
    rw [hfirst.unique hleast, hlast] at hvalue
    exact Option.some.inj hvalue

end Lists

/-! ## The address at a height -/

section Fallback

variable {entries entries' : List (Int × Option String)} {height : Int} {answer : Option String}

/-- The address that a list of entries gives at a height: that of the greatest height up to there, and if
there is no such height or it has no address, that of the least height. -/
def FallbackOf (entries : List (Int × Option String)) (height : Int) (answer : Option String) : Prop :=
  (∃ start address, IsGreatest {k ∈ heightsOf entries | k ≤ height} start ∧
    lastValue? entries start = some (some address) ∧ answer = some address) ∨
  (∀ start, IsGreatest {k ∈ heightsOf entries | k ≤ height} start →
    lastValue? entries start = some none) ∧
    ∃ first, IsLeast (heightsOf entries) first ∧ lastValue? entries first = some answer

theorem forall_isGreatest_iff :
    (∀ start, IsGreatest {k ∈ heightsOf entries | k ≤ height} start →
      lastValue? entries start = some none) ↔
      ∀ address, (Timeline.ofList entries).valueAt? height ≠ some (some address) := by
  constructor
  · intro hnull address hvalue
    obtain ⟨start, hstart, hlast⟩ := Timeline.valueAt?_ofList_eq_some_iff.mp hvalue
    rw [hnull start hstart] at hlast
    cases hlast
  · intro hnone start hstart
    obtain ⟨value, hlast⟩ := mem_heightsOf_iff.mp hstart.1.1
    cases value with
    | none => exact hlast
    | some address =>
      exact (hnone address (Timeline.valueAt?_ofList_eq_some_iff.mpr ⟨start, hstart, hlast⟩)).elim

theorem Ledger.fallbackAt_eq_iff {ledger : Ledger} (h : ledger.history = Timeline.ofList entries) :
    ledger.fallbackAt height = answer ↔ FallbackOf entries height answer := by
  obtain ⟨genesis, history, hne⟩ := ledger
  subst h
  have hinForce : (∃ start address, IsGreatest {k ∈ heightsOf entries | k ≤ height} start ∧
      lastValue? entries start = some (some address) ∧ answer = some address) ↔
      ∃ address, (Timeline.ofList entries).valueAt? height = some (some address) ∧
        answer = some address := by
    simp only [Timeline.valueAt?_ofList_eq_some_iff, ← and_assoc]
    rw [exists_comm]
    simp only [exists_and_right]
  unfold FallbackOf fallbackAt
  rw [hinForce, forall_isGreatest_iff, ← Timeline.head_ofList_eq_iff hne]
  cases (Timeline.ofList entries).valueAt? height with
  | none => simp
  | some value => cases value <;> simp [eq_comm]

/-- A part of two sets that is bounded above and has a member fixes their least members. -/
theorem isLeast_of_same_below {s t : Set Int} {bound first : Int}
    (hsame : ∀ k < bound, k ∈ s → k ∈ t) (hsame' : ∀ k < bound, k ∈ t → k ∈ s)
    (hbelow : ∃ k ∈ s, k < bound) (h : IsLeast s first) : IsLeast t first := by
  obtain ⟨k, hk, hlt⟩ := hbelow
  have hfirst : first < bound := (h.2 hk).trans_lt hlt
  refine ⟨hsame first hfirst h.1, fun other hother => ?_⟩
  rcases Int.lt_or_le other bound with hin | hout
  · exact h.2 (hsame' other hin hother)
  · exact (hfirst.trans_le hout).le

/-- The address at a height is settled by the heights below a bound, if it is above the height and some
entry is below it. -/
theorem fallbackOf_congr {bound : Int}
    (hsame : ∀ k < bound, lastValue? entries k = lastValue? entries' k)
    (hbelow : ∃ k ∈ heightsOf entries, k < bound) (hheight : height < bound) :
    FallbackOf entries height answer ↔ FallbackOf entries' height answer := by
  have hmem : ∀ k < bound, k ∈ heightsOf entries ↔ k ∈ heightsOf entries' :=
    fun k hk => mem_heightsOf_congr (hsame k hk)
  have hupTo : {k ∈ heightsOf entries | k ≤ height} = {k ∈ heightsOf entries' | k ≤ height} := by
    ext k
    exact and_congr_left fun hk => hmem k (Int.lt_of_le_of_lt hk hheight)
  have hleast : ∀ first, IsLeast (heightsOf entries) first ↔ IsLeast (heightsOf entries') first := by
    obtain ⟨k, hk, hlt⟩ := hbelow
    have hinto := fun k hk => (hmem k hk).mp
    have hback := fun k hk => (hmem k hk).mpr
    exact fun first => ⟨isLeast_of_same_below hinto hback ⟨k, hk, hlt⟩,
      isLeast_of_same_below hback hinto ⟨k, hinto k hlt hk, hlt⟩⟩
  have hstart : ∀ start, IsGreatest {k ∈ heightsOf entries' | k ≤ height} start →
      lastValue? entries start = lastValue? entries' start := by
    intro start h
    exact hsame start (Int.lt_of_le_of_lt h.1.2 hheight)
  have hfirst : ∀ first, IsLeast (heightsOf entries) first →
      lastValue? entries first = lastValue? entries' first := by
    intro first h
    obtain ⟨k, hk, hlt⟩ := hbelow
    exact hsame first ((h.2 hk).trans_lt hlt)
  unfold FallbackOf
  rw [hupTo]
  refine or_congr ?_ (and_congr ?_ ?_)
  · refine exists_congr fun start => exists_congr fun address => and_congr_right fun h => ?_
    rw [hstart start h]
  · refine forall_congr' fun start => imp_congr_right fun h => ?_
    rw [hstart start h]
  · refine exists_congr fun first => ?_
    rw [← hleast first]
    refine and_congr_right fun h => ?_
    rw [hfirst first h]

/-- Between two heights without an entry in between nothing changes. -/
theorem fallbackOf_of_no_entry {later : Int} (hle : height ≤ later)
    (hnone : ∀ k ∈ heightsOf entries, k ≤ later → k ≤ height) :
    FallbackOf entries later answer ↔ FallbackOf entries height answer := by
  have hupTo : {k ∈ heightsOf entries | k ≤ later} = {k ∈ heightsOf entries | k ≤ height} := by
    ext k
    exact and_congr_right fun hk => ⟨hnone k hk, fun h => h.trans hle⟩
  unfold FallbackOf
  rw [hupTo]

namespace Ledger

theorem exists_ofEntries {genesis : Int} (hgenesis : 0 ≤ genesis)
    (hne : (heightsOf entries).Nonempty) :
    ∃ ledger, ofEntries genesis entries = .ok ledger ∧ ledger.history = Timeline.ofList entries := by
  have hhistory : (Timeline.ofList entries).entries ≠ [] := by
    obtain ⟨k, hk⟩ := hne
    obtain ⟨value, hmem⟩ := Timeline.exists_mem_ofList_iff.mpr hk
    exact List.ne_nil_of_mem hmem
  refine ⟨⟨genesis.toNat, Timeline.ofList entries, hhistory⟩, ?_, rfl⟩
  rw [ofEntries, if_neg (Int.not_lt.mpr hgenesis)]
  exact dif_neg hhistory

/-- **The fallback address follows the entries.** A ledger of at least one entry, with a genesis that is not
negative, answers at every height with the last address of the greatest height up to there, and where
there is none with that of the least height. Entries for different heights may stand in any order. The
answer changes only at heights that have an entry, and an entry above the least height decides nothing
below its own. -/
theorem fallback_follows_entries {genesis : Int} {entries : List (Int × Option String)}
    (hgenesis : 0 ≤ genesis) (hne : entries ≠ []) :
    ∃ ledger, ofEntries genesis entries = .ok ledger ∧
      (∀ height answer, ledger.fallbackAt height = answer ↔ FallbackOf entries height answer) ∧
      (∀ entries' : List (Int × Option String),
        (∀ height, entries.filter (·.1 = height) = entries'.filter (·.1 = height)) →
        ∃ ledger', ofEntries genesis entries' = .ok ledger' ∧
          ∀ height, ledger'.fallbackAt height = ledger.fallbackAt height) ∧
      (∀ height later, height ≤ later → ledger.fallbackAt later ≠ ledger.fallbackAt height →
        ∃ k ∈ heightsOf entries, height < k ∧ k ≤ later) ∧
      ∀ before entry after, entries = before ++ entry :: after →
        (∃ k ∈ heightsOf entries, k < entry.1) →
        ∃ ledger', ofEntries genesis (before ++ after) = .ok ledger' ∧
          ∀ height < entry.1, ledger'.fallbackAt height = ledger.fallbackAt height := by
  have hnonempty : (heightsOf entries).Nonempty := by
    obtain ⟨entry, rest, rfl⟩ := List.exists_cons_of_ne_nil hne
    exact ⟨entry.1, List.mem_map_of_mem List.mem_cons_self⟩
  obtain ⟨ledger, hledger, hhistory⟩ := exists_ofEntries hgenesis hnonempty
  have hanswer : ∀ height answer, ledger.fallbackAt height = answer ↔
      FallbackOf entries height answer := fun _ _ => fallbackAt_eq_iff hhistory
  refine ⟨ledger, hledger, hanswer, ?_, ?_, ?_⟩
  · intro entries' hsame
    have hlast : ∀ k, lastValue? entries k = lastValue? entries' k := by
      intro k
      rw [lastValue?, lastValue?, hsame k]
    obtain ⟨k, hk⟩ := hnonempty
    obtain ⟨ledger', hledger', hhistory'⟩ :=
      exists_ofEntries hgenesis ⟨k, (mem_heightsOf_congr (hlast k)).mp hk⟩
    refine ⟨ledger', hledger', fun height => ?_⟩
    have hbelow : k < max height k + 1 := by omega
    rw [fallbackAt_eq_iff hhistory',
      ← fallbackOf_congr (fun k _ => hlast k) ⟨k, hk, hbelow⟩ (by omega), ← hanswer]
  · intro height later hle hchange
    refine Classical.byContradiction fun hnone => hchange ?_
    rw [hanswer, fallbackOf_of_no_entry hle, ← hanswer]
    intro k hk hkle
    exact Int.not_lt.mp fun hlt => hnone ⟨k, hk, hlt, hkle⟩
  · rintro before entry after rfl ⟨k, hk, hlt⟩
    have hlast : ∀ k < entry.1,
        lastValue? (before ++ entry :: after) k = lastValue? (before ++ after) k := by
      intro k hk
      have hne : ¬entry.1 = k := by omega
      simp [lastValue?, hne]
    obtain ⟨ledger', hledger', hhistory'⟩ :=
      exists_ofEntries hgenesis ⟨k, (mem_heightsOf_congr (hlast k hlt)).mp hk⟩
    refine ⟨ledger', hledger', fun height hheight => ?_⟩
    rw [fallbackAt_eq_iff hhistory', ← fallbackOf_congr hlast ⟨k, hk, hlt⟩ hheight, ← hanswer]

/-- Three heights in no order; the first one has two addresses, and the second one none. -/
def succession : List (Int × Option String) :=
  [(300, some "third"), (100, some "early"), (200, none), (100, some "first")]

theorem fallback_follows_succession :
    (0 : Int) ≤ 90 ∧ succession ≠ [] ∧ ∃ ledger, ofEntries 90 succession = .ok ledger ∧
      ledger.fallbackAt 50 = some "first" ∧ ledger.fallbackAt 299 = some "first" ∧
      ledger.fallbackAt 300 = some "third" ∧
      (∃ ledger', ofEntries 90
          [(100, some "early"), (100, some "first"), (300, some "third"), (200, none)] = .ok ledger' ∧
        ∀ height, ledger'.fallbackAt height = ledger.fallbackAt height) ∧
      (∃ k ∈ heightsOf succession, 299 < k ∧ k ≤ 300) ∧
      ∃ ledger', ofEntries 90 [(100, some "early"), (200, none), (100, some "first")] = .ok ledger' ∧
        ∀ height < 300, ledger'.fallbackAt height = ledger.fallbackAt height := by
  have hne : succession ≠ [] := List.cons_ne_nil _ _
  have hmem : ∀ k, k ∈ heightsOf succession ↔ k = 300 ∨ k = 100 ∨ k = 200 ∨ k = 100 := by
    simp [heightsOf, succession]
  have hgreatest : ∀ {height start : Int}, start ∈ heightsOf succession → start ≤ height →
      (∀ k ∈ heightsOf succession, k ≤ height → k ≤ start) →
      IsGreatest {k ∈ heightsOf succession | k ≤ height} start :=
    fun hstart hle hupper => ⟨⟨hstart, hle⟩, fun k hk => hupper k hk.1 hk.2⟩
  have hleast : IsLeast (heightsOf succession) 100 := by
    refine ⟨(hmem 100).mpr (by simp), fun k hk => ?_⟩
    have := (hmem k).mp hk
    omega
  have hfirst : FallbackOf succession 50 (some "first") := by
    refine .inr ⟨fun start hstart => ?_, 100, hleast, rfl⟩
    have := (hmem start).mp hstart.1.1
    have := hstart.1.2
    omega
  have hnull : FallbackOf succession 299 (some "first") := by
    refine .inr ⟨fun start hstart => ?_, 100, hleast, rfl⟩
    have hsecond : start = 200 :=
      hstart.unique (hgreatest ((hmem 200).mpr (by simp)) (by decide) (by simp [hmem]))
    rw [hsecond]
    rfl
  have hthird : FallbackOf succession 300 (some "third") :=
    .inl ⟨300, "third", hgreatest ((hmem 300).mpr (by simp)) (by decide) (by simp [hmem]), rfl, rfl⟩
  obtain ⟨ledger, hledger, hanswer, hsame, hchange, hdropped⟩ :=
    fallback_follows_entries (show (0 : Int) ≤ 90 by decide) hne
  refine ⟨by decide, hne, ledger, hledger, (hanswer 50 _).mpr hfirst, (hanswer 299 _).mpr hnull,
    (hanswer 300 _).mpr hthird, hsame _ fun height => ?_, ?_, ?_⟩
  · grind [succession]
  · apply hchange 299 300 (by decide)
    rw [(hanswer 299 _).mpr hnull, (hanswer 300 _).mpr hthird]
    decide
  · exact hdropped [] (300, some "third") _ rfl ⟨100, (hmem 100).mpr (by simp), by decide⟩

end Ledger

end Fallback

end DelayedPayout
