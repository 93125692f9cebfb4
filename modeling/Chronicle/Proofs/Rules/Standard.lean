import Chronicle.Proofs.Rules.Computed
import Chronicle.Proofs.Rules.Forms
import Chronicle.Rules.Differ
import Chronicle.Rules.Standard

/-!
# The standard rules

The standard document infers every event that is found without rules. `Differ.diff_standard` says
that a differ with its rules never falls back, and that the events it reports are those of the
direct diff besides some that the direct diff does not know.

The document is read once: `RuleBook.parse_standard` lists its conditions in the order in which
they are tried. What remains is about a few forms of conditions over the builtin values.
-/

namespace Chronicle

namespace RuleBook

open Condition

/-- The conditions of the standard rules by event, in the order in which they are tried. -/
def standardConditions : List (String × Condition) :=
  [("player_death", named "player_died"),
    ("battle_start", named "battle_started"),
    ("level_up", named "level_up"),
    ("floor_advance", named "floor_changed"),
    ("battle_end", named "battle_ended"),
    ("monster_killed", given "monster_killed"),
    ("boss_defeated", .all [named "monster_killed",
      isTrue ⟨"prev.monster.is_boss", some (.prev, ["monster", "is_boss"])⟩]),
    ("player_damaged", negative "hp_delta"),
    ("low_hp_warning", .all [named "is_low_hp", named "player_damaged",
      .not (named "player_death")]),
    ("player_healed", .all [positive "hp_delta", .not (named "level_up")]),
    ("critical_hit", isTrue ⟨"action_result.critical", some (.action, ["critical"])⟩),
    ("exp_gain", positive "exp_delta"),
    ("gold_gain", positive "gold_delta"),
    ("gold_spent", negative "gold_delta"),
    ("item_obtain", nonempty "item_obtained"),
    ("item_use", nonempty "item_used"),
    ("scene_change", named "scene_changed"),
    ("dialog_open", named "dialog_opened"),
    ("dialog_close", named "dialog_closed"),
    ("tutorial_advance", named "tutorial_advanced"),
    ("achievement_unlock", nonempty "achievement_unlocked"),
    ("feature_unlock", nonempty "feature_unlocked"),
    ("story_progress", named "story_progress_updated")]

/-- The health of the player is below three tenths. -/
def lowHealth : Condition :=
  .compare .lt (named "hp_ratio") (.literal (.ofFloat? (Decimal.toBinary64 false ⟨3, -1⟩)))

/-- The kills by which a transition adds to the total. -/
def killsGained : Condition :=
  .arith .sub
    (.name ⟨"curr.character.total_kills", some (.curr, ["character", "total_kills"])⟩)
    (.name ⟨"prev.character.total_kills", some (.prev, ["character", "total_kills"])⟩)

/-- A book has the rules and definitions of the standard document, and extracts names only. -/
structure IsStandard (book : RuleBook) : Prop where
  conditions : book.rules.map (fun r ↦ (r.event, r.condition)) = standardConditions
  extractions : ∀ r ∈ book.rules, ∀ e ∈ r.extractions, e.condition.isName = true
  definitions : book.definitions.map (fun d ↦ (d.name, d.condition)) =
    [("is_low_hp", lowHealth), ("kills_gained", killsGained)]

instance (book : RuleBook) : Decidable book.IsStandard :=
  decidable_of_iff (_ ∧ _ ∧ _) ⟨fun ⟨h, g, f⟩ ↦ ⟨h, g, f⟩, fun ⟨h, g, f⟩ ↦ ⟨h, g, f⟩⟩

set_option maxRecDepth 100000 in
/-- The standard document can be read, and has the standard rules. -/
theorem parse_standard : ∃ book, parse standardText.toList = .ok book ∧ book.IsStandard := by
  obtain ⟨cs, htext, hread⟩ : ∃ cs, standardText = String.ofList cs ∧
      (parse cs).toOption.any (fun book ↦ decide book.IsStandard) = true :=
    ⟨_, rfl, by decide +kernel⟩
  rw [htext, String.toList_ofList]
  obtain ⟨book, hbook, hstandard⟩ := (Option.any_eq_true _ _).mp hread
  exact ⟨book, toOption_eq_some.mp hbook, of_decide_eq_true hstandard⟩

variable {t : Transition}

/-- Whether the health is low can always be said. -/
theorem evaluate_lowHealth (ctx : Context) (h : t.DescribedBy ctx.computed) :
    ∃ v, lowHealth.evaluate ctx = .ok v := by
  simp only [Transition.DescribedBy, Transition.builtins, List.forall_mem_cons] at h
  obtain ⟨_, _, _, _, hratio, _⟩ := h
  obtain ⟨b, hb⟩ := Comparison.apply_lt_ok (numeric_ratio t.curr.player.hp t.curr.player.maxHp)
    (numeric_ofFloat? (Decimal.toBinary64 false ⟨3, -1⟩))
  refine ⟨.bool b, ?_⟩
  simp only [lowHealth, Condition.evaluate, Condition.evaluate_named hratio, ok_bind, hb]

/-- The kills in a state are found by their path. -/
theorem walk_totalKills (s : GameState) :
    Context.walk ["character", "total_kills"] s.tree = some (.int s.character.totalKills.toNat) :=
  rfl

/-- The kills that a transition adds to the total can always be computed. -/
theorem evaluate_killsGained (ctx : Context) (hprev : ctx.prev = t.prev.tree)
    (hcurr : ctx.curr = t.curr.tree) (hfired : ctx.fired = [])
    (hlookup : ∀ path ∈ ["curr.character.total_kills", "prev.character.total_kills"],
      ctx.computed.lookup path = none) :
    ∃ v, killsGained.evaluate ctx = .ok v := by
  obtain ⟨hcurrPath, hprevPath, _⟩ := by simpa only [List.forall_mem_cons] using hlookup
  have hleast : Numeric.least = -9223372036854775808 := by decide
  have hgreatest : Numeric.greatest = 9223372036854775807 := by decide
  have hm := t.curr.character.totalKills.toNat_lt
  have hn := t.prev.character.totalKills.toNat_lt
  have hdifference : Operation.sub.apply (.int t.curr.character.totalKills.toNat)
      (.int t.prev.character.totalKills.toNat) = _ :=
    Operation.apply_sub_int (by omega) (by omega) (by omega)
  refine ⟨_, Eq.trans ?_ hdifference⟩
  simp only [killsGained, Condition.evaluate, Context.resolve, hcurrPath, hprevPath, hfired,
    Context.follow, hcurr, hprev, walk_totalKills]
  rfl

/-- The definitions of the standard document can always be evaluated. -/
theorem infer_standard {book : RuleBook} (hbook : book.IsStandard) (t : Transition)
    (action : Option Attributes) : ∃ inference, book.infer t action = .ok inference := by
  obtain ⟨low, hlow⟩ := evaluate_lowHealth (t.context action) t.describedBy_builtins
  have hlookup : ∀ path ∈ ["curr.character.total_kills", "prev.character.total_kills"],
      (Keyed.insert "is_low_hp" low t.builtins).lookup path = none := by
    intro path hpath
    have hkeys : path ≠ "is_low_hp" ∧ path ∉ Keyed.keys t.builtins := by
      rw [Transition.keys_builtins]
      revert path
      decide
    rw [Keyed.lookup_insert, if_neg hkeys.1, Keyed.lookup_eq_none hkeys.2]
  -- The second definition is evaluated when the value of the first is there already.
  obtain ⟨kills, hkills⟩ := evaluate_killsGained
    { t.context action with computed := Keyed.insert "is_low_hp" low t.builtins } rfl rfl rfl
    hlookup
  obtain ⟨first, others, hfirst, hlowHealth, hothers⟩ := List.map_eq_cons_iff.mp hbook.definitions
  obtain ⟨second, hsecond, hkillsGained⟩ := List.map_eq_singleton_iff.mp hothers
  obtain ⟨hname, hcondition⟩ := Prod.mk.inj hlowHealth
  obtain ⟨hname', hcondition'⟩ := Prod.mk.inj hkillsGained
  have hcomputed : computeValues (t.context action) book.definitions =
      .ok (Keyed.insert "kills_gained" kills (Keyed.insert "is_low_hp" low t.builtins)) := by
    simp only [hfirst, hsecond, computeValues, hcondition, hlow, hname, hcondition', hname']
    rw [Transition.context] at hkills ⊢
    simp only [hkills]
  exact ⟨_, bind_eq_ok.mpr ⟨_, hcomputed, rfl⟩⟩

/-- The rules whose events can be found without rules hold exactly where these are found. -/
theorem holds_standardConditions {ctx : Context} (h : t.DescribedBy ctx.computed) :
    ∀ row ∈ standardConditions, row.1 ∈ Transition.directNames →
      row.2.holds ctx = t.directEvents.contains row.1 := by
  have hsigns := t.contains_directEvents
  simp only [Transition.signs, List.forall_mem_cons] at hsigns
  simp only [Transition.DescribedBy, Transition.builtins, List.forall_mem_cons] at h
  obtain ⟨floor, start, stop, kill, death, level, damaged, healed, obtained, used, scene, opened,
    closed, tutorial, achievement, feature, story, _⟩ := hsigns
  obtain ⟨hp, _, _, _, _, _, itemObtained, itemUsed, _, floorChanged, battleStarted, battleEnded,
    levelUp, playerDied, monsterKilled, sceneChanged, _, _, dialogOpened, dialogClosed,
    tutorialAdvanced, achievements, features, storyProgressed, _⟩ := h
  simp only [standardConditions, List.forall_mem_cons]
  -- One goal for each row; the rows of events that only rules find have nothing to show.
  refine ⟨fun _ ↦ ?_, fun _ ↦ ?_, fun _ ↦ ?_, fun _ ↦ ?_, fun _ ↦ ?_, fun _ ↦ ?_,
    fun hname ↦ absurd hname (by decide), fun _ ↦ ?_, fun hname ↦ absurd hname (by decide),
    fun _ ↦ ?_, fun hname ↦ absurd hname (by decide), fun hname ↦ absurd hname (by decide),
    fun hname ↦ absurd hname (by decide), fun hname ↦ absurd hname (by decide), fun _ ↦ ?_,
    fun _ ↦ ?_, fun _ ↦ ?_, fun _ ↦ ?_, fun _ ↦ ?_, fun _ ↦ ?_, fun _ ↦ ?_, fun _ ↦ ?_,
    fun _ ↦ ?_, fun _ hnone ↦ absurd hnone List.not_mem_nil⟩
  · rw [death, holds_named playerDied]
  · rw [start, holds_named battleStarted]
  · rw [level, holds_named levelUp]
  · rw [floor, holds_named floorChanged]
  · rw [stop, holds_named battleEnded]
  · rw [kill, holds_given monsterKilled]
  · rw [damaged, holds_negative hp]
  · rw [healed, holds_positive_not hp levelUp]
  · rw [obtained, holds_nonempty itemObtained]
  · rw [used, holds_nonempty itemUsed]
  · rw [scene, holds_named sceneChanged]
  · rw [opened, holds_named dialogOpened]
  · rw [closed, holds_named dialogClosed]
  · rw [tutorial, holds_named tutorialAdvanced]
  · rw [achievement, holds_nonempty achievements]
  · rw [feature, holds_nonempty features]
  · rw [story, holds_named storyProgressed]

end RuleBook

/-- The events of a pass with the standard rules that can be found without rules are those that
are found without rules. -/
theorem Inference.eventIds_standard {book : RuleBook} (hbook : book.IsStandard) {t : Transition}
    {action : Option Attributes} {inference : Inference}
    (hinfer : book.infer t action = .ok inference) (hshown : t.DescribedBy inference.computed) :
    inference.eventIds.filter Transition.directNames.contains =
      ((Keyed.keys RuleBook.standardConditions).filter Transition.directNames.contains).filter
        t.directEvents.contains := by
  obtain ⟨computed, _, heq⟩ := bind_eq_ok.mp hinfer
  cases heq
  have hevents : book.rules.map (·.event) = Keyed.keys RuleBook.standardConditions := by
    rw [← hbook.conditions, Keyed.keys, List.map_map]
    rfl
  rw [← hevents]
  refine filter_inferEvents fun r hr hwanted fired ↦ ?_
  have hrow : (r.event, r.condition) ∈ RuleBook.standardConditions := by
    rw [← hbook.conditions]
    exact List.mem_map_of_mem hr
  rw [EventRule.isSome_fire? (hbook.extractions r hr)]
  exact RuleBook.holds_standardConditions hshown _ hrow (List.contains_iff_mem.mp hwanted)

/-- With the standard rules a differ never falls back, and its events that can be found without
rules are those of the direct diff, each once. -/
theorem Differ.diff_standard :
    ∃ book, RuleBook.load (some (.text RuleBook.standardText.toList)) = .ok book ∧
      ∀ (t : Transition) (action : Option Attributes),
        let outcome := Differ.diff ⟨book, false⟩ t action
        let found := outcome.diff.events.filter Transition.directNames.contains
        outcome.source = .rules ∧ outcome.diff.events = outcome.events.map (·.rule.event) ∧
          found.Nodup ∧ found.Perm t.directDiff.events := by
  obtain ⟨book, hparse, hbook⟩ := RuleBook.parse_standard
  refine ⟨book, hparse, fun t action ↦ ?_⟩
  obtain ⟨inference, hinfer⟩ := RuleBook.infer_standard hbook t action
  have hshown := RuleBook.describedBy_of_infer (RuleBook.keepsBuiltins_of_parse hparse) hinfer
  have houtcome : Differ.diff ⟨book, false⟩ t action =
      ⟨{ t.directDiff with changes := inference.computed, events := inference.eventIds },
        inference.events, inference.extracted, .rules⟩ := by
    simp only [Differ.diff, Differ.byRules, hinfer, ok_bind, Inference.diff_eq_direct hshown]
    rfl
  have hfound := Inference.eventIds_standard hbook hinfer hshown
  have hnodup : (inference.eventIds.filter Transition.directNames.contains).Nodup := by
    rw [hfound]
    have hkeys : (Keyed.keys RuleBook.standardConditions).Nodup := by decide
    exact (hkeys.filter _).filter _
  simp only [houtcome, true_and]
  refine ⟨rfl, hnodup, ?_⟩
  have hdirect := t.directEvents_sublist
  refine (List.perm_ext_iff_of_nodup hnodup (hdirect.nodup Transition.directNames_nodup)).mpr ?_
  intro event
  rw [hfound, List.mem_filter, List.mem_filter, List.contains_iff_mem, List.contains_iff_mem]
  constructor
  · exact And.right
  · intro h
    have hname := hdirect.subset h
    have hknown : Transition.directNames ⊆ Keyed.keys RuleBook.standardConditions := by decide
    exact ⟨⟨hknown hname, hname⟩, h⟩

end Chronicle
