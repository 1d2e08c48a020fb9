import Chip8.Keypad
import Mathlib.Data.List.FinRange

/-! # What listeners hear of the keypad

A listener hears of every change of a key, and of nothing else. Who carries out what it hears on the
keys as they were when it was added has the keys as they are now, and of any one key it hears by
turns that it goes down and that it comes up. All that is done to single keys keeps this, by number
or by name, whether it changes a key, finds it as it should be, or is refused. -/

namespace Chip8

namespace Keypad

/-! ## Operations -/

inductive Operation
  | set (key : Int) (pressed : Bool)
  | setNamed (name : String) (pressed : Bool)
  | reset
  | addListener
deriving DecidableEq

inductive Answer
  | done
  /-- Whether the name belongs to a key. -/
  | known (b : Bool)
  | refused (e : KeyError)
  /-- The number of the listener. -/
  | added (listener : Nat)
deriving DecidableEq

/-- The answer, what listeners hear, and the keypad that is left. -/
def perform (p : Keypad) : Operation → Answer × List KeyEvent × Keypad
  | .set key pressed => match p.setIndex key pressed with
    | .ok (heard, p) => (.done, heard, p)
    | .error e => (.refused e, [], p)
  | .setNamed name pressed =>
    let (known, heard, p) := p.setNamed name pressed
    (.known known, heard, p)
  | .reset => (.done, [], p.reset)
  | .addListener =>
    let (listener, p) := p.addListener
    (.added listener, [], p)

def events (p : Keypad) (op : Operation) : List KeyEvent := (p.perform op).2.1

def after (p : Keypad) (op : Operation) : Keypad := (p.perform op).2.2

/-- The keypad behind a run of operations. -/
def run (p : Keypad) (ops : List Operation) : Keypad := ops.foldl after p

/-- What listeners hear over a run. -/
def eventsOf (p : Keypad) : List Operation → List KeyEvent
  | [] => []
  | op :: ops => p.events op ++ (p.after op).eventsOf ops

/-! ## Changes -/

abbrev Keys := Vector Bool 16

/-- A key went down or came up. -/
structure Change where
  key : Nibble
  pressed : Bool
deriving DecidableEq

/-- The keys that are not as they were, each as it is now. -/
def changes (old new : Keys) : List Change :=
  ((List.finRange 16).filter fun k => old.get k ≠ new.get k).map fun k => ⟨k, new.get k⟩

/-- Each change is told to all listeners, in the order in which they were added. -/
def tidings (listeners : Nat) (cs : List Change) : List KeyEvent :=
  cs.flatMap fun c => (List.range listeners).map fun l => ⟨l, c.key, c.pressed⟩

/-- What one of the listeners hears. -/
def heardBy (listener : Nat) (es : List KeyEvent) : List Change :=
  (es.filter (·.listener = listener)).map fun e => ⟨e.key, e.pressed⟩

/-- What is heard of one of the keys. -/
def turns (k : Nibble) (cs : List Change) : List Bool :=
  (cs.filter (·.key = k)).map (·.pressed)

/-- Carries out what was heard. -/
def replay (keys : Keys) (cs : List Change) : Keys :=
  cs.foldl (fun keys c => setAt keys c.key c.pressed) keys

/-- A listener that knew the keys before has them as they are now by what it heard, and of no key
it heard twice in a row that it went down, or that it came up. -/
structure Follows (listener : Nat) (old : Keys) (es : List KeyEvent) (new : Keys) : Prop where
  view : replay old (heardBy listener es) = new
  byTurns : ∀ k, (old.get k :: turns k (heardBy listener es)).IsChain (· ≠ ·)

variable {p : Keypad} {op : Operation} {ops : List Operation} {old new : Keys} {k : Nibble}
  {l n : Nat}

theorem ext_get (h : ∀ k, old.get k = new.get k) : old = new :=
  Vector.ext fun i hi => h ⟨i, hi⟩

/-- In a list without repeats a filter for one member finds it once. -/
theorem filter_eq_of_nodup {α : Type} [DecidableEq α] {as : List α} (h : as.Nodup) (a : α) :
    as.filter (· = a) = if a ∈ as then [a] else [] := by
  rw [List.filter_eq, h.count]
  split <;> rfl

theorem heardBy_append (l : Nat) (es fs : List KeyEvent) :
    heardBy l (es ++ fs) = heardBy l es ++ heardBy l fs := by
  simp only [heardBy, List.filter_append, List.map_append]

/-- Of what all are told each one hears everything, once. -/
theorem heardBy_tidings (l n : Nat) (cs : List Change) :
    heardBy l (tidings n cs) = if l < n then cs else [] := by
  induction cs with
  | nil => simp [heardBy, tidings]
  | cons c cs ih =>
    have hone : heardBy l ((List.range n).map fun l => ⟨l, c.key, c.pressed⟩) =
        if l < n then [c] else [] := by
      have hfilter := filter_eq_of_nodup (List.nodup_range (n := n)) l
      simp only [List.mem_range] at hfilter
      simp only [heardBy, List.filter_map, Function.comp_def, hfilter]
      split <;> rfl
    change heardBy l (_ ++ tidings n cs) = _
    rw [heardBy_append, hone, ih]
    split <;> rfl

theorem turns_append (k : Nibble) (cs ds : List Change) :
    turns k (cs ++ ds) = turns k cs ++ turns k ds := by
  simp only [turns, List.filter_append, List.map_append]

theorem turns_changes (k : Nibble) (old new : Keys) :
    turns k (changes old new) = if old.get k = new.get k then [] else [new.get k] := by
  have hfilter := filter_eq_of_nodup
    ((List.nodup_finRange 16).filter fun k => old.get k ≠ new.get k) k
  simp only [List.mem_filter, List.mem_finRange, true_and, decide_eq_true_eq] at hfilter
  simp only [turns, changes, List.filter_map, Function.comp_def, hfilter]
  by_cases h : old.get k = new.get k
  · rw [if_pos h, if_neg (not_not_intro h)]
    rfl
  · rw [if_neg h, if_pos h]
    rfl

/-- The last that was heard of a key decides, and the key is as it was if nothing was heard. -/
theorem get_replay (keys : Keys) (cs : List Change) (k : Nibble) :
    (replay keys cs).get k = (turns k cs).getLast?.getD (keys.get k) := by
  induction cs generalizing keys with
  | nil => rfl
  | cons c cs ih =>
    change (replay (setAt keys c.key c.pressed) cs).get k = _
    rw [ih, get_setAt]
    by_cases hk : c.key = k
    · have hturns : turns k (c :: cs) = c.pressed :: turns k cs := by
        rw [turns, List.filter_cons_of_pos (by simpa using hk)]
        rfl
      rw [if_pos hk.symm, hturns, List.getLast?_cons]
      rfl
    · have hturns : turns k (c :: cs) = turns k cs := by
        rw [turns, List.filter_cons_of_neg (by simpa using hk)]
        rfl
      rw [if_neg (Ne.symm hk), hturns]

theorem replay_append (keys : Keys) (cs ds : List Change) :
    replay keys (cs ++ ds) = replay (replay keys cs) ds := List.foldl_append

theorem replay_changes (old new : Keys) : replay old (changes old new) = new := by
  refine ext_get fun k => ?_
  rw [get_replay, turns_changes]
  by_cases h : old.get k = new.get k
  · rw [if_pos h]
    exact h
  · rw [if_neg h]
    rfl

theorem changes_self (keys : Keys) : changes keys keys = [] := by
  simp [changes]

theorem changes_setAt (keys : Keys) (k : Nibble) (b : Bool) :
    changes keys (setAt keys k b) = if keys.get k = b then [] else [⟨k, b⟩] := by
  by_cases h : keys.get k = b
  · have hsame : setAt keys k b = keys := ext_get fun j => by
      rw [get_setAt]
      by_cases hj : j = k
      · rw [if_pos hj, hj, h]
      · rw [if_neg hj]
    rw [if_pos h, hsame, changes_self]
  · -- the key that was set is the only one that can be another
    have hfilter : (List.finRange 16).filter (fun j => keys.get j ≠ (setAt keys k b).get j) =
        (List.finRange 16).filter (· = k) := by
      refine List.filter_congr fun j _ => decide_eq_decide.mpr ?_
      rw [get_setAt]
      by_cases hj : j = k
      · simpa [hj] using h
      · simp [hj]
    rw [if_neg h, changes, hfilter, filter_eq_of_nodup (List.nodup_finRange 16),
      if_pos (List.mem_finRange k), List.map_singleton, get_setAt, if_pos rfl]

/-! ## One operation -/

/-- The operation is told to all listeners as the changes that it makes. -/
def Announces (p : Keypad) (op : Operation) : Prop :=
  p.events op = tidings p.listeners (changes p.keys (p.after op).keys)

theorem ofIndex_of_key {key : Int} (h : 0 ≤ key ∧ key < 16) : ofIndex key = .ok (nibbleOf key) :=
  if_pos h

theorem ofIndex_of_noKey {key : Int} (h : ¬ (0 ≤ key ∧ key < 16)) : ofIndex key = .error ⟨key⟩ :=
  if_neg h

theorem ofName?_eq_none_iff {name : String} :
    ofName? name = none ↔ Text.lowercase name ∉ hostKeys.map (·.1) := by
  rw [ofName?, List.lookup_eq_none_iff]
  simp only [List.mem_map, not_exists, not_and, bne_iff_ne]
  exact forall₂_congr fun _ _ => ne_comm

/-- Setting a key is told to all listeners if the key was not so before. -/
theorem set_eq (p : Keypad) (k : Nibble) (pressed : Bool) : p.set k pressed =
    (tidings p.listeners (changes p.keys (setAt p.keys k pressed)),
      { p with keys := setAt p.keys k pressed }) := by
  rw [changes_setAt]
  unfold set isDown
  by_cases h : p.keys.get k = pressed
  · rw [if_pos h, if_pos h]
    rfl
  · rw [if_neg h, if_neg h]
    simp [tidings]

theorem perform_set {key : Int} (h : 0 ≤ key ∧ key < 16) (pressed : Bool) :
    p.perform (.set key pressed) = (.done, p.set (nibbleOf key) pressed) := by
  simp only [perform, setIndex, ofIndex_of_key h]
  rfl

theorem perform_set_of_noKey {key : Int} (h : ¬ (0 ≤ key ∧ key < 16)) (pressed : Bool) :
    p.perform (.set key pressed) = (.refused ⟨key⟩, [], p) := by
  simp only [perform, setIndex, ofIndex_of_noKey h]
  rfl

theorem perform_setNamed {name : String} (h : ofName? name = some k) (pressed : Bool) :
    p.perform (.setNamed name pressed) = (.known true, p.set k pressed) := by
  simp only [perform, setNamed, h]

theorem perform_setNamed_of_noKey {name : String} (h : ofName? name = none) (pressed : Bool) :
    p.perform (.setNamed name pressed) = (.known false, [], p) := by
  simp only [perform, setNamed, h]

theorem announces_of_still (h : (p.perform op).2.1 = []) (hkeys : (p.perform op).2.2.keys = p.keys) :
    p.Announces op := by
  unfold Announces events after
  rw [h, hkeys, changes_self]
  rfl

theorem announces_of_set {pressed : Bool} (h : (p.perform op).2 = p.set k pressed) :
    p.Announces op := by
  unfold Announces events after
  rw [h, set_eq]

/-- All but a reset is told to the listeners. -/
theorem announces_of_ne_reset (h : op ≠ .reset) : p.Announces op := by
  cases op with
  | set key pressed =>
    by_cases hkey : 0 ≤ key ∧ key < 16
    · exact announces_of_set (by rw [perform_set hkey])
    · refine announces_of_still ?_ ?_ <;> rw [perform_set_of_noKey hkey]
  | setNamed name pressed =>
    cases hname : ofName? name with
    | some k => exact announces_of_set (by rw [perform_setNamed hname])
    | none => refine announces_of_still ?_ ?_ <;> rw [perform_setNamed_of_noKey hname]
  | reset => exact absurd rfl h
  | addListener => exact announces_of_still rfl rfl

theorem isDown_reset (p : Keypad) (k : Nibble) : p.reset.isDown k = false :=
  Vector.getElem_replicate k.isLt

/-- There is nothing to tell of a reset that finds all keys up. -/
theorem announces_reset (h : ∀ k, p.isDown k = false) : p.Announces .reset := by
  have hkeys : p.reset.keys = p.keys := ext_get fun k => (p.isDown_reset k).trans (h k).symm
  exact announces_of_still rfl hkeys

theorem listeners_after (p : Keypad) (op : Operation) : p.listeners ≤ (p.after op).listeners := by
  cases op with
  | set key pressed =>
    unfold after
    by_cases hkey : 0 ≤ key ∧ key < 16
    · rw [perform_set hkey]
      exact Nat.le_refl _
    · rw [perform_set_of_noKey hkey]
  | setNamed name pressed =>
    unfold after
    cases hname : ofName? name with
    | some k =>
      rw [perform_setNamed hname]
      exact Nat.le_refl _
    | none => rw [perform_setNamed_of_noKey hname]
  | reset => exact Nat.le_refl _
  | addListener => exact Nat.le_succ _

/-! ## Runs -/

theorem run_append (p : Keypad) (ops ops' : List Operation) :
    p.run (ops ++ ops') = (p.run ops).run ops' := List.foldl_append

theorem listeners_run (p : Keypad) (ops : List Operation) :
    p.listeners ≤ (p.run ops).listeners := by
  induction ops generalizing p with
  | nil => exact Nat.le_refl _
  | cons op ops ih => exact (p.listeners_after op).trans (ih _)

theorem eventsOf_append (p : Keypad) (ops ops' : List Operation) :
    p.eventsOf (ops ++ ops') = p.eventsOf ops ++ (p.run ops).eventsOf ops' := by
  induction ops generalizing p with
  | nil => rfl
  | cons op ops ih =>
    change p.events op ++ (p.after op).eventsOf (ops ++ ops') = _
    rw [ih, ← List.append_assoc]
    rfl

/-- Every operation of the run is told to the listeners. -/
def AnnouncesAll (p : Keypad) (ops : List Operation) : Prop :=
  ∀ before op after, ops = before ++ op :: after → (p.run before).Announces op

theorem announcesAll_cons : p.AnnouncesAll (op :: ops) ↔
    p.Announces op ∧ (p.after op).AnnouncesAll ops := by
  constructor
  · intro h
    exact ⟨h [] op ops rfl, fun before o after he => h (op :: before) o after (by rw [he]; rfl)⟩
  · intro h before o after he
    cases before with
    | nil =>
      cases he
      exact h.1
    | cons b before =>
      cases he
      exact h.2 before o after rfl

/-- Nobody hears anything before there is somebody. -/
theorem heardBy_of_absent (h : p.AnnouncesAll ops) (hl : (p.run ops).listeners ≤ l) :
    heardBy l (p.eventsOf ops) = [] := by
  induction ops generalizing p with
  | nil => rfl
  | cons op ops ih =>
    obtain ⟨hop, hops⟩ := announcesAll_cons.mp h
    have habsent : ¬ l < p.listeners := by
      have := p.listeners_run (op :: ops)
      omega
    change heardBy l (p.events op ++ _) = []
    rw [heardBy_append, hop, heardBy_tidings, if_neg habsent, ih hops hl]
    rfl

/-- The step: who knows the keys before an operation that is told knows them behind it. -/
theorem Follows.cons (hl : l < p.listeners) (hop : p.Announces op)
    (h : Follows l (p.after op).keys ((p.after op).eventsOf ops) ((p.after op).run ops).keys) :
    Follows l p.keys (p.eventsOf (op :: ops)) (p.run (op :: ops)).keys := by
  have hheard : heardBy l (p.eventsOf (op :: ops)) =
      changes p.keys (p.after op).keys ++ heardBy l ((p.after op).eventsOf ops) := by
    change heardBy l (p.events op ++ _) = _
    rw [heardBy_append, hop, heardBy_tidings, if_pos hl]
  constructor
  · rw [hheard, replay_append, replay_changes]
    exact h.view
  · intro k
    rw [hheard, turns_append, turns_changes]
    by_cases hk : p.keys.get k = (p.after op).keys.get k
    · rw [if_pos hk, hk]
      exact h.byTurns k
    · rw [if_neg hk]
      exact List.isChain_cons_cons.mpr ⟨hk, h.byTurns k⟩

theorem follows_run (hl : l < p.listeners) (h : p.AnnouncesAll ops) :
    Follows l p.keys (p.eventsOf ops) (p.run ops).keys := by
  induction ops generalizing p with
  | nil => exact ⟨rfl, fun k => .singleton _⟩
  | cons op ops ih =>
    obtain ⟨hop, hops⟩ := announcesAll_cons.mp h
    -- a listener is never taken away again
    exact .cons hl hop (ih (hl.trans_le (p.listeners_after op)) hops)

/-- A listener that is added on the way knows the keys from then on, and before it hears nothing. -/
theorem follows_added {before after : List Operation}
    (h : p.AnnouncesAll (before ++ .addListener :: after)) :
    Follows (p.run before).listeners (p.run before).keys
      (p.eventsOf (before ++ .addListener :: after))
      (p.run (before ++ .addListener :: after)).keys := by
  have hbefore : p.AnnouncesAll before := fun b o a he =>
    h b o (a ++ .addListener :: after) (by rw [he, List.append_assoc]; rfl)
  have hafter : ((p.run before).after .addListener).AnnouncesAll after := fun b o a he => by
    have hop := h (before ++ .addListener :: b) o a (by rw [he, List.append_assoc]; rfl)
    rwa [run_append] at hop
  have hfollows := follows_run (l := (p.run before).listeners) (Nat.lt_succ_self _) hafter
  have hheard : heardBy (p.run before).listeners (p.eventsOf (before ++ .addListener :: after)) =
      heardBy (p.run before).listeners (((p.run before).after .addListener).eventsOf after) := by
    rw [eventsOf_append, heardBy_append, heardBy_of_absent hbefore (Nat.le_refl _)]
    rfl
  constructor
  · rw [hheard, run_append]
    exact hfollows.view
  · rw [hheard]
    exact hfollows.byTurns

/-- Over a run without resets every operation is told to all listeners, each time once and in the
order in which they were added, as the changes that it makes. Every listener follows the keypad from
when it was added, and those that are there at the start follow it from the start. A number that
belongs to no key is refused and a name that belongs to none answered with no, and then nothing is
changed and nothing heard; other numbers and names set their key. -/
theorem listeners_hear_changes (p : Keypad) (ops : List Operation) (h : .reset ∉ ops) :
    (∀ before op after, ops = before ++ op :: after → (p.run before).events op =
      tidings (p.run before).listeners
        (changes (p.run before).keys (p.run (before ++ [op])).keys)) ∧
    (∀ before after, ops = before ++ .addListener :: after →
      ((p.run before).perform .addListener).1 = .added (p.run before).listeners ∧
      Follows (p.run before).listeners (p.run before).keys (p.eventsOf ops) (p.run ops).keys) ∧
    (∀ l, l < p.listeners → Follows l p.keys (p.eventsOf ops) (p.run ops).keys) ∧
    ∀ (q : Keypad) (pressed : Bool),
      (∀ key, key < 0 ∨ 16 ≤ key → q.perform (.set key pressed) = (.refused ⟨key⟩, [], q)) ∧
      (∀ key, 0 ≤ key → key < 16 → (q.perform (.set key pressed)).1 = .done ∧
        q.after (.set key pressed) = { q with keys := setAt q.keys (nibbleOf key) pressed }) ∧
      (∀ name, Text.lowercase name ∉ hostKeys.map (·.1) →
        q.perform (.setNamed name pressed) = (.known false, [], q)) ∧
      ∀ name k, ofName? name = some k → (q.perform (.setNamed name pressed)).1 = .known true ∧
        q.after (.setNamed name pressed) = { q with keys := setAt q.keys k pressed } := by
  have hall : p.AnnouncesAll ops := fun before op after he =>
    announces_of_ne_reset fun hop => h (by rw [he, hop]; simp)
  refine ⟨fun before op after he => ?_, fun before after he => ⟨rfl, ?_⟩,
    fun l hl => follows_run hl hall, fun q pressed => ⟨fun key hkey => ?_, fun key lo hi => ?_,
      fun name hname => ?_, fun name k hname => ?_⟩⟩
  · rw [run_append]
    exact hall before op after he
  · rw [he] at hall ⊢
    exact follows_added hall
  · exact perform_set_of_noKey (by omega) pressed
  · unfold after
    rw [perform_set ⟨lo, hi⟩, set_eq]
    exact ⟨rfl, rfl⟩
  · exact perform_setNamed_of_noKey (ofName?_eq_none_iff.mpr hname) pressed
  · unfold after
    rw [perform_setNamed hname, set_eq]
    exact ⟨rfl, rfl⟩

/-- The second listener comes while a key is down, and hears of it when it comes up. -/
theorem listeners_hear_changes_late :
    let ops : List Operation := [.addListener, .set 3 true, .addListener, .set 3 true,
      .setNamed "q" true, .set 99 true, .set 3 false]
    .reset ∉ ops ∧
      Follows 1 (({} : Keypad).run [.addListener, .set 3 true]).keys (({} : Keypad).eventsOf ops)
        (({} : Keypad).run ops).keys ∧
      ({} : Keypad).perform (.set 99 true) = (.refused ⟨99⟩, [], {}) := by
  intro ops
  have h : .reset ∉ ops := by decide
  obtain ⟨_, hadded, _, hcalls⟩ := listeners_hear_changes {} ops h
  exact ⟨h, (hadded [.addListener, .set 3 true] _ rfl).2, (hcalls {} true).1 99 (by decide)⟩

end Keypad

end Chip8
