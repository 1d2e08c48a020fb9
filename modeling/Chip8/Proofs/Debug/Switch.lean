import Chip8.Proofs.Debug.Setting

/-! # When the setting is read

The setting is read at the first question behind a reload, or behind the start, and what was found
is kept until the next reload, also where it is nothing. Changes of the setting in between are not
seen. So every answer, and whether a line is printed, goes back to the setting as it stood when that
first question was asked, and nothing else in the history bears on it. -/

namespace Chip8.Debug.Switch

/-! ## Operations -/

inductive Query
  | enabled (category : Option String)
  | log (category message : String) (args : List Text.Arg)

inductive Operation
  | set (value : Option String)
  | reload
  | ask (q : Query)

inductive Answer
  | done
  /-- The setting stays as it was. -/
  | refused (e : SettingError)
  | told (on : Bool)
  | printed (lines : List String)
  /-- The line could not be put together. -/
  | failed (e : LimitError)

def ask (room : Room) (s : Switch) : Query → Answer × Switch
  | .enabled category =>
    let (on, s) := s.enabled category
    (.told on, s)
  | .log category message args => match log room category message args s with
    | .ok lines s => (.printed lines, s)
    | .error e s => (.failed e, s)

def perform (room : Room) (s : Switch) : Operation → Answer × Switch
  | .set value => match checked value with
    | .ok value => (.done, s.set value)
    | .error e => (.refused e, s)
  | .reload => (.done, s.reload)
  | .ask q => s.ask room q

def after (room : Room) (s : Switch) (op : Operation) : Switch := (s.perform room op).2

/-- The switch behind a run of operations. -/
def run (room : Room) (s : Switch) (ops : List Operation) : Switch := ops.foldl (after room) s

/-- Nothing was read yet. -/
def start (value : Option String) : Switch := { setting := value }

/-! ## Histories -/

/-- What the setting is changed to. -/
def accepted : Operation → Option (Option String)
  | .set value => (checked value).toOption
  | _ => none

/-- The setting behind a run: what it was last changed to. -/
def settingAfter (value : Option String) (ops : List Operation) : Option String :=
  (ops.filterMap accepted).getLast?.getD value

/-- `before` is what came before the first question that was asked in the history since the latest
reload, or since the start if there was none. -/
structure ReadBehind (history before : List Operation) : Prop where
  unasked : ∃ old sets, before = old ++ sets ∧ (old = [] ∨ old.getLast? = some .reload) ∧
    ∀ op ∈ sets, ∃ value, op = .set value
  asked : ∃ q rest, history = before ++ .ask q :: rest ∧ .reload ∉ rest

/-- What may be answered to a question while these names are set. -/
inductive Answered (room : Room) (names : Set String) : Query → Answer → Prop
  | told {category : Option String} {on : Bool} (h : on = true ↔ On names category) :
      Answered room names (.enabled category) (.told on)
  | silent {category message : String} {args : List Text.Arg} (h : ¬ On names (some category)) :
      Answered room names (.log category message args) (.printed [])
  | plain {category message : String} (h : On names (some category)) :
      Answered room names (.log category message []) (.printed [Categories.record category message])
  | filled {category message text : String} {args : List Text.Arg}
      (h : On names (some category)) (hargs : args ≠ [])
      (htext : compose room message args = .ok text) :
      Answered room names (.log category message args) (.printed [Categories.record category text])
  | failed {category message : String} {args : List Text.Arg} {e : LimitError}
      (h : On names (some category)) (he : compose room message args = .error e) :
      Answered room names (.log category message args) (.failed e)

variable {room : Room} {s : Switch} {value : Option String} {names : Set String} {q : Query}
  {op : Operation} {ops past before : List Operation}

/-- The names and the question leave no choice. -/
theorem Answered.unique {a b : Answer} (ha : Answered room names q a)
    (hb : Answered room names q b) : a = b := by
  cases ha with
  | told h => cases hb with
    | told h' => rw [Bool.eq_iff_iff.mpr (h.trans h'.symm)]
  | silent h => cases hb with
    | silent => rfl
    | plain h' | filled h' | failed h' => exact absurd h' h
  | plain h => cases hb with
    | silent h' => exact absurd h h'
    | plain => rfl
    | filled _ hargs => exact absurd rfl hargs
    | failed _ he => cases he
  | filled h hargs htext => cases hb with
    | silent h' => exact absurd h h'
    | plain => exact absurd rfl hargs
    | filled _ _ htext' =>
      cases htext.symm.trans htext'
      rfl
    | failed _ he => cases htext.symm.trans he
  | failed h he => cases hb with
    | silent h' => exact absurd h h'
    | plain => cases he
    | filled _ _ htext => cases htext.symm.trans he
    | failed _ he' =>
      cases he.symm.trans he'
      rfl

/-! ## One operation -/

theorem ask_snd (room : Room) (s : Switch) (q : Query) : (s.ask room q).2 = s.load := by
  cases q with
  | enabled category => rfl
  | log category message args =>
    unfold ask log
    dsimp only
    by_cases h : s.categories.enabled (some category) = true
    · rw [if_pos h]
      cases compose room message args <;> rfl
    · rw [if_neg h]

theorem setting_after (room : Room) (s : Switch) (op : Operation) :
    (s.after room op).setting = (accepted op).getD s.setting := by
  cases op with
  | set value =>
    unfold after perform accepted
    dsimp only
    cases checked value <;> rfl
  | reload => rfl
  | ask q =>
    change (s.ask room q).2.setting = s.setting
    rw [ask_snd]
    rfl

/-- A change is not seen, a reload forgets, and a question keeps what is in force. -/
theorem cached_after (room : Room) (s : Switch) (op : Operation) :
    (s.after room op).cached = match op with
      | .set _ => s.cached
      | .reload => none
      | .ask _ => some s.categories := by
  cases op with
  | set value =>
    unfold after perform
    dsimp only
    cases checked value <;> rfl
  | reload => rfl
  | ask q =>
    change (s.ask room q).2.cached = some s.categories
    rw [ask_snd]
    rfl

/-- The answer goes by the categories that are in force. -/
theorem answered_ask (room : Room) (h : s.categories = Categories.ofSetting value) :
    Answered room (named value) q (s.ask room q).1 := by
  cases q with
  | enabled category =>
    refine .told ?_
    rw [← enabled_iff, ← h]
  | log category message args =>
    have henabled := enabled_iff value (some category)
    rw [← h] at henabled
    unfold ask log
    dsimp only
    by_cases hon : On (named value) (some category)
    · rw [if_pos (henabled.mpr hon)]
      cases htext : compose room message args with
      | error e => exact .failed hon htext
      | ok text =>
        cases args with
        | nil =>
          cases htext
          exact .plain hon
        | cons arg args => exact .filled hon (List.cons_ne_nil _ _) htext
    · rw [if_neg (mt henabled.mp hon)]
      exact .silent hon

/-! ## Runs -/

theorem run_append (room : Room) (s : Switch) (ops ops' : List Operation) :
    s.run room (ops ++ ops') = (s.run room ops).run room ops' := List.foldl_append

theorem setting_run (room : Room) (s : Switch) (ops : List Operation) :
    (s.run room ops).setting = settingAfter s.setting ops := by
  induction ops generalizing s with
  | nil => rfl
  | cons op ops ih =>
    change ((s.after room op).run room ops).setting = _
    rw [ih, setting_after, settingAfter, settingAfter, List.filterMap_cons]
    cases accepted op with
    | none => rfl
    | some value =>
      rw [List.getLast?_cons]
      rfl

/-- What was read stays in force while there is no reload. -/
theorem cached_run_of_no_reload {c : Categories} (h : s.cached = some c) (hops : .reload ∉ ops) :
    (s.run room ops).cached = some c := by
  induction ops generalizing s with
  | nil => exact h
  | cons op ops ih =>
    obtain ⟨hop, hops⟩ := not_or.mp (mt List.mem_cons.mpr hops)
    refine ih ?_ hops
    rw [cached_after]
    cases op with
    | set value => exact h
    | reload => exact absurd rfl hop
    | ask q =>
      rw [categories, h]
      rfl

theorem cached_run_of_sets (h : ∀ op ∈ ops, ∃ value, op = .set value) :
    (s.run room ops).cached = s.cached := by
  induction ops generalizing s with
  | nil => rfl
  | cons op ops ih =>
    obtain ⟨value, rfl⟩ := h op List.mem_cons_self
    change ((s.after room (.set value)).run room ops).cached = _
    rw [ih fun op hop => h op (List.mem_cons_of_mem _ hop), cached_after]

/-- Before the first question nothing is kept, neither at the start nor behind a reload. -/
theorem cached_run_of_unasked {old sets : List Operation}
    (hold : old = [] ∨ old.getLast? = some .reload) (hsets : ∀ op ∈ sets, ∃ value, op = .set value) :
    ((start value).run room (old ++ sets)).cached = none := by
  rw [run_append, cached_run_of_sets hsets]
  rcases hold with rfl | hold
  · rfl
  · obtain ⟨older, rfl⟩ := List.getLast?_eq_some_iff.mp hold
    rw [run_append]
    exact cached_after room _ .reload

/-- An entry at which a list is parted is the last one, or the last one comes behind it. -/
theorem snoc_eq_append_cons {α : Type} {past before rest : List α} {last first : α}
    (h : past ++ [last] = before ++ first :: rest) :
    past = before ∧ last = first ∧ rest = [] ∨
      ∃ between, rest = between ++ [last] ∧ past = before ++ first :: between := by
  rcases rest.eq_nil_or_concat with rfl | ⟨between, final, rfl⟩
  · obtain ⟨hpast, hlast⟩ := List.append_inj' h rfl
    cases hlast
    exact .inl ⟨hpast, rfl, rfl⟩
  · have h' : past ++ [last] = (before ++ first :: between) ++ [final] := by simpa using h
    obtain ⟨hpast, hlast⟩ := List.append_inj' h' rfl
    cases hlast
    exact .inr ⟨between, by simp, hpast⟩

/-- Whatever was done, at a question there is a first question since the latest reload. -/
theorem exists_readBehind (past : List Operation) (q : Query) :
    ∃ before, ReadBehind (past ++ [.ask q]) before := by
  induction past using List.reverseRecOn generalizing q with
  | nil => exact ⟨[], ⟨[], [], rfl, .inl rfl, by simp⟩, q, [], rfl, List.not_mem_nil⟩
  | append_singleton past op ih =>
    cases op with
    | reload =>
      exact ⟨past ++ [.reload], ⟨past ++ [.reload], [], by simp, .inr (by simp), by simp⟩,
        q, [], rfl, List.not_mem_nil⟩
    | ask q' =>
      obtain ⟨before, hunasked, first, rest, hpast, hrest⟩ := ih q'
      exact ⟨before, hunasked, first, rest ++ [.ask q], by rw [hpast]; simp, by simp [hrest]⟩
    | set value =>
      obtain ⟨before, ⟨old, sets, hbefore, hold, hsets⟩, first, rest, hpast, hrest⟩ := ih q
      rcases snoc_eq_append_cons hpast with ⟨rfl, -, -⟩ | ⟨between, rfl, rfl⟩
      · -- the question is still the first one, and the change comes before it
        refine ⟨past ++ [.set value], ⟨old, sets ++ [.set value], by simp [hbefore], hold, ?_⟩,
          q, [], rfl, List.not_mem_nil⟩
        intro op hop
        rcases List.mem_append.mp hop with hop | hop
        · exact hsets op hop
        · exact ⟨value, List.mem_singleton.mp hop⟩
      · refine ⟨before, ⟨old, sets, hbefore, hold, hsets⟩, first,
          between ++ [.set value, .ask q], by simp, ?_⟩
        simpa using hrest

/-- At a question the categories in force are those of the setting as it was read. -/
theorem categories_run (room : Room) (value : Option String)
    (h : ReadBehind (past ++ [.ask q]) before) :
    ((start value).run room past).categories =
      Categories.ofSetting (settingAfter value before) := by
  obtain ⟨⟨old, sets, rfl, hold, hsets⟩, first, rest, hpast, hrest⟩ := h
  have hread : ((start value).run room (old ++ sets)).categories =
      Categories.ofSetting (settingAfter value (old ++ sets)) := by
    rw [categories, cached_run_of_unasked hold hsets, setting_run]
    rfl
  rcases snoc_eq_append_cons hpast with ⟨rfl, -, -⟩ | ⟨between, rfl, rfl⟩
  · exact hread
  · have hbetween : .reload ∉ between := fun hmem => hrest (List.mem_append_left _ hmem)
    have hkept : ((start value).run room (old ++ sets ++ .ask first :: between)).cached =
        some ((start value).run room (old ++ sets)).categories := by
      rw [run_append]
      change ((((start value).run room (old ++ sets)).after room (.ask first)).run room
        between).cached = _
      exact cached_run_of_no_reload (cached_after room _ (.ask first)) hbetween
    rw [← hread, categories, hkept]
    rfl

/-- Every question, wherever in a history it is asked, is answered by the setting as it stood at the
first question since the latest reload, or since the start: by its names alone, so that two
histories which agree on these get one answer. -/
theorem answers_by_setting_read (room : Room) (value : Option String) (past : List Operation)
    (q : Query) :
    (∃ before, ReadBehind (past ++ [.ask q]) before) ∧
    ∀ before, ReadBehind (past ++ [.ask q]) before →
      Answered room (named (settingAfter value before)) q
        (((start value).run room past).ask room q).1 ∧
      ∀ (value' : Option String) (past' before' : List Operation),
        ReadBehind (past' ++ [.ask q]) before' →
        named (settingAfter value' before') = named (settingAfter value before) →
        (((start value').run room past').ask room q).1 =
          (((start value).run room past).ask room q).1 := by
  refine ⟨exists_readBehind past q, fun before h => ?_⟩
  have hanswer := answered_ask (q := q) room (categories_run room value h)
  refine ⟨hanswer, fun value' past' before' h' hnames => ?_⟩
  have hanswer' := answered_ask (q := q) room (categories_run room value' h')
  rw [hnames] at hanswer'
  exact hanswer'.unique hanswer

/-- A setting of blanks and commas is read and kept like any other. It stays in force when everything
is turned on later, until the next reload. -/
theorem answers_by_setting_read_blank :
    let before : List Operation := [.ask (.enabled none), .reload, .set (some " , "),
      .set (some "\x00")]
    let past := before ++ [.ask (.log "fault" "%d" [.text "many"]), .set (some "all")]
    let q : Query := .enabled (some "cpu")
    ReadBehind (past ++ [.ask q]) before ∧ settingAfter (some "on") before = some " , " ∧
      ((start (some "on")).run .unlimited past).setting = some "all" ∧
      (((start (some "on")).run .unlimited past).ask .unlimited q).1 = .told false ∧
      Answered .unlimited (named (some " , ")) q (.told false) := by
  intro before past q
  have hread : ReadBehind (past ++ [.ask q]) before :=
    ⟨⟨[.ask (.enabled none), .reload], _, rfl, .inr rfl, by simp⟩, _, _, rfl, by simp⟩
  have hsetting : settingAfter (some "on") before = some " , " := rfl
  have h := ((answers_by_setting_read .unlimited (some "on") past q).2 before hread).1
  rw [hsetting] at h
  have hoff : ¬ On (named (some " , ")) (some "cpu") := by
    rw [← enabled_iff, Categories.ofSetting, splitOn_comma]
    decide
  have hanswer : (((start (some "on")).run .unlimited past).ask .unlimited q).1 = .told false :=
    h.unique (.told (iff_of_false Bool.false_ne_true hoff))
  exact ⟨hread, hsetting, setting_run _ _ past, hanswer, hanswer ▸ h⟩

end Chip8.Debug.Switch
