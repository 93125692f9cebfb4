import Chronicle.Transition.Diff
import Mathlib.Algebra.Group.Int.Defs

/-!
# Reading the builtin values back

`StateDiff.ofComputed_eq_direct` says that values which include the builtin ones of a transition
always make up a diff, and that in all but the values and the events it is the direct one. Each kind
of value is read back as it was put in; the rest is that every name is found.
-/

namespace Chronicle

namespace StateDiff

variable {computed : Attributes} {name : String}

/-- An integer of 64 bits is read back. -/
theorem int_ofInt64 {n : Int64} (h : computed.lookup name = some (.ofInt64 n)) :
    int computed name = .ok n := by
  have hrange : -0x8000000000000000 ≤ n.toInt ∧ n.toInt < 0x8000000000000000 :=
    ⟨n.le_toInt, n.toInt_lt⟩
  simp only [int, given?, h, Value.ofInt64]
  rw [if_pos hrange, Int64.ofInt_toInt]

/-- A flag is read back. -/
theorem flag_bool {b : Bool} (h : computed.lookup name = some (.bool b)) :
    flag computed name = .ok b := by
  simp only [flag, given?, h]

/-- A text that may be missing is read back. -/
theorem text?_ofText? {s : Option String} (h : computed.lookup name = some (.ofText? s)) :
    text? computed name = .ok s := by
  cases s with
  | none => simp only [text?, given?, h, Value.ofText?]
  | some s => simp only [text?, given?, h, Value.ofText?]

/-- The texts in a list of texts are those it was made of. -/
theorem textsOf?_map_str (strings : List String) :
    textsOf? (strings.map .str) = some strings := by
  induction strings with
  | nil => rfl
  | cons s rest ih => simp [textsOf?, ih]

/-- A list of texts is read back. -/
theorem texts_ofTexts {strings : List String}
    (h : computed.lookup name = some (.ofTexts strings)) :
    texts computed name = .ok strings := by
  simp only [texts, given?, h, Value.ofTexts, textsOf?_map_str]

end StateDiff

namespace Transition

/-- The values include the builtin ones of the transition. -/
def DescribedBy (t : Transition) (computed : Attributes) : Prop :=
  ∀ entry ∈ t.builtins, computed.lookup entry.1 = some entry.2

/-- No name stands for two builtin values. -/
theorem builtinNames_nodup : builtinNames.Nodup := by decide

/-- The builtin values include themselves. -/
theorem describedBy_builtins (t : Transition) : t.DescribedBy t.builtins := by
  have hkeys : (Keyed.keys t.builtins).Nodup := keys_builtins t ▸ builtinNames_nodup
  intro entry hentry
  exact Keyed.lookup_eq_some_of_mem hkeys hentry

/-- What the direct diff records as changed are builtin values. -/
theorem directChanges_subset (t : Transition) : t.directChanges ⊆ t.builtins := by
  intro entry h
  -- The deltas that are not zero come first, then the floor if it is another one.
  rcases List.mem_append.mp h with h | h
  · obtain ⟨⟨name, delta⟩, hdelta, hkeep⟩ := List.mem_filterMap.mp h
    have hentry : entry = (name, .ofInt64 delta) := by
      simp only [Option.ite_none_left_eq_some, Option.some.injEq] at hkeep
      exact hkeep.2.symm
    rw [hentry]
    simp only [List.mem_cons, List.not_mem_nil, or_false] at hdelta
    rcases hdelta with h | h | h <;> cases h <;> simp [builtins]
  · split at h
    · next hfloor =>
        rw [List.mem_singleton.mp h, ← hfloor]
        simp [builtins]
    · exact absurd h List.not_mem_nil

theorem directNames_nodup : directNames.Nodup := by decide

/-- An event is found without rules if its sign is set. -/
theorem mem_directEvents {t : Transition} {event : String} :
    event ∈ t.directEvents ↔ (event, true) ∈ t.signs := by
  simp [directEvents]

/-- The events that are found without rules are in the order of their names. -/
theorem directEvents_sublist (t : Transition) : t.directEvents.Sublist directNames := by
  rw [← keys_signs t, directEvents]
  induction t.signs with
  | nil => exact .slnil
  | cons sign rest ih =>
      obtain ⟨event, happened⟩ := sign
      cases happened with
      | false => exact ih.cons _
      | true => exact ih.cons_cons _

/-- Each sign says whether its event is found without rules. -/
theorem contains_directEvents (t : Transition) :
    ∀ sign ∈ t.signs, t.directEvents.contains sign.1 = sign.2 := by
  intro sign hsign
  obtain ⟨event, happened⟩ := sign
  have hkeys : (Keyed.keys t.signs).Nodup := keys_signs t ▸ directNames_nodup
  have hlookup := Keyed.lookup_eq_some_of_mem hkeys hsign
  rw [Bool.eq_iff_iff, List.contains_iff_mem, mem_directEvents]
  refine ⟨fun h ↦ ?_, fun h ↦ ?_⟩
  · exact (Option.some.inj (hlookup.symm.trans (Keyed.lookup_eq_some_of_mem hkeys h)))
  · show (event, true) ∈ t.signs
    rw [← show happened = true from h]
    exact hsign

end Transition

/-- Values that include the builtin ones make up the direct diff, but for the values and the
events. -/
theorem StateDiff.ofComputed_eq_direct {t : Transition} {computed : Attributes}
    (h : t.DescribedBy computed) (events : List String) :
    ofComputed t.prev.tick t.curr.tick events computed =
      .ok { t.directDiff with changes := computed, events := events } := by
  simp only [Transition.DescribedBy, Transition.builtins, List.forall_mem_cons] at h
  obtain ⟨hp, _, gold, exp, _, _, obtained, used, _, floor, started, ended, level, died, killed,
    scene, sceneFrom, sceneTo, opened, closed, tutorial, achievements, features, story, playtime,
    _⟩ := h
  simp only [ofComputed, int_ofInt64 hp, int_ofInt64 gold, int_ofInt64 exp, flag_bool floor,
    flag_bool started, flag_bool ended, flag_bool level, texts_ofTexts obtained,
    texts_ofTexts used, text?_ofText? killed, flag_bool died, flag_bool scene,
    text?_ofText? sceneFrom, text?_ofText? sceneTo, flag_bool opened, flag_bool closed,
    flag_bool tutorial, texts_ofTexts achievements, texts_ofTexts features, flag_bool story,
    int_ofInt64 playtime]
  rfl

/-! ### Deltas -/

/-- A number in a state, with its delta in a diff. -/
structure Gauge where
  read : GameState → Int64
  delta : StateDiff → Int64

/-- The numbers whose deltas a diff has: hit points, gold, experience, and the time played. -/
def gauges : List Gauge :=
  [⟨(·.player.hp), (·.hpDelta)⟩, ⟨(·.player.gold), (·.goldDelta)⟩, ⟨(·.player.exp), (·.expDelta)⟩,
    ⟨(·.character.playtimeMs), (·.playtimeDelta)⟩]

namespace Gauge

/-- The difference between two states fits in 64 bits. -/
def Fits (gauge : Gauge) (prev curr : GameState) : Prop :=
  -2 ^ 63 ≤ (gauge.read curr).toInt - (gauge.read prev).toInt ∧
    (gauge.read curr).toInt - (gauge.read prev).toInt < 2 ^ 63

/-- A difference that fits is exact. -/
theorem toInt_difference {a b : Int64} (hlow : -2 ^ 63 ≤ a.toInt - b.toInt)
    (hhigh : a.toInt - b.toInt < 2 ^ 63) : (difference a b).toInt = a.toInt - b.toInt := by
  rw [difference, Int.min_eq_right (by omega), Int.max_eq_right (by omega)]
  exact Int64.toInt_ofInt_of_le hlow hhigh

/-- The delta of the direct diff is the difference between its states, whatever values and events
the diff comes with. -/
theorem delta_direct {gauge : Gauge} (hgauge : gauge ∈ gauges) (t : Transition)
    (changes : Attributes) (events : List String) :
    gauge.delta { t.directDiff with changes, events } =
      difference (gauge.read t.curr) (gauge.read t.prev) := by
  simp only [gauges, List.mem_cons, List.not_mem_nil, or_false] at hgauge
  obtain rfl | rfl | rfl | rfl := hgauge
  · rfl
  · rfl
  · rfl
  · rfl

end Gauge

end Chronicle
