import Keypad.Proofs.Console.ErrorState
import Keypad.Proofs.Console.Refusal
import Keypad.Proofs.Machine.StoreFrame

/-!
# Keeping a number and typing it again

A number that is kept under a name comes back with the unit and the colour that it had, whatever
commands come in between, as long as they leave the variable of the name alone. Commands are those
that key text stands for (`IsKeyed`): no key brings a number, nor a naming with it, so a unit is
never the empty text, which would be lost on the way.

* `carryOutEach_filed`, `carryOutEach_find?` — what keyed commands leave of the variables.
* `carryOut_store`          — what keeping a number comes to.
* `carryOut_retrieve`       — what typing the variable of a name comes to.
* `carryOut_retrieve_store` — both, with commands in between.
-/

namespace Keypad

/-- The commands that a line of key text stands for, without those that cannot be read. -/
def Lexeme.commandsOf (line : String) : List Command :=
  (scan line.toList).1.flatMap fun lexeme => lexeme.commands.toOption.getD []

namespace Command

/-- Whether some key text stands for the command. -/
def IsKeyed (command : Command) : Prop := ∃ line, command ∈ Lexeme.commandsOf line

/-- Whether the command saves the variable of the name or gives it up. -/
def Touches (name : String) : Command → Prop
  | .act action => action.Touches name
  | .store name' => name' = name
  | _ => False

/-- The command of a key brings no number, so nothing has to hold of one. -/
theorem brings_of_ofKey? {p : String → Prop} {key : Char} {action : Action}
    (h : ofKey? key = some (.act action)) : action.Brings p := by
  unfold ofKey? at h
  split at h <;> cases h <;> trivial

/-- No lexeme brings a number. -/
theorem brings_of_commands {p : String → Prop} {lexeme : Lexeme} {commands : List Command}
    {action : Action} (h : lexeme.commands = .ok commands) (hmem : .act action ∈ commands) :
    action.Brings p := by
  obtain ⟨form, text⟩ := lexeme
  cases form with
  | number =>
    cases h
    obtain ⟨c, -, hc⟩ := List.mem_map.1 hmem
    cases hc
    trivial
  | command =>
    cases h
    obtain ⟨c, -, hc⟩ := List.mem_filterMap.1 hmem
    exact brings_of_ofKey? hc
  | load =>
    rw [Lexeme.commands] at h
    cases hread : Lexeme.readIndex text.tail with
    | error fault => cases hread ▸ h
    | ok index =>
      cases hread ▸ h
      cases List.mem_singleton.1 hmem
      trivial
  | store =>
    cases h
    cases List.mem_singleton.1 hmem
  | space =>
    cases h
    cases hmem
  | operator | paren | label | unit | retrieve | forget =>
    cases h
    cases List.mem_singleton.1 hmem
    trivial

/-- Key text brings no naming of its own. -/
theorem IsKeyed.not_bringsNaming {action : Action} (h : IsKeyed (.act action)) :
    ¬action.BringsNaming := by
  obtain ⟨line, hmem⟩ := h
  obtain ⟨lexeme, -, hmem⟩ := List.mem_flatMap.1 hmem
  cases hcommands : lexeme.commands with
  | error fault =>
    rw [hcommands] at hmem
    cases hmem
  | ok commands =>
    rw [hcommands] at hmem
    exact (brings_of_commands hcommands hmem).not_bringsNaming

end Command

/-- The name of a colour is read as the colour. -/
theorem Color.readOption_map_name (color : Option Color) :
    Color.readOption (color.map Color.name) = .ok color := by
  cases color with
  | none => rfl
  | some color => cases color <;> decide

namespace Console

open Machine Outcome

variable {m : Machine} {name : String}

/-! ## What keyed commands leave of the variables -/

/-- A command does actions only. Those of a keyed command bring no naming, and touch no variable
that the command does not touch. -/
theorem carryOut_keep_keyed {P : Machine → Prop} {command : Command} (h : command.IsKeyed)
    (hstep : ∀ m action, ¬action.BringsNaming →
      (∀ name, action.Touches name → command.Touches name) → P m → P (m.perform action).machine)
    (hm : P m) : P (carryOut m command).machine := by
  cases command with
  | act action => exact hstep m action h.not_bringsNaming (fun _ => id) hm
  | store name =>
    rw [carryOut, keep]
    split
    · exact hm
    · have hsave := hstep m (.save name m.buffer m.naming.unit (m.naming.color.map Color.name))
        id (fun _ => id) hm
      exact andThen_elim hsave fun _ => hstep _ _ id (fun _ => False.elim) hsave
  | showHistory => exact hm
  | showVariables => exact hm
  | showHelp => exact hm

/-- So are the actions of a run of keyed commands. -/
theorem carryOutEach_keep_keyed {P : Machine → Prop} {commands : List Command}
    (h : ∀ command ∈ commands, command.IsKeyed)
    (hstep : ∀ m action, ¬action.BringsNaming →
      (∀ name, action.Touches name → ∃ command ∈ commands, command.Touches name) →
      P m → P (m.perform action).machine)
    (hm : P m) : P (carryOutEach m commands) := by
  induction commands generalizing m with
  | nil => exact hm
  | cons command commands ih =>
    obtain ⟨hcommand, hcommands⟩ := List.forall_mem_cons.1 h
    refine ih hcommands (fun m action hbrings htouches => hstep m action hbrings ?_) ?_
    · intro name hname
      obtain ⟨command', hmem, hname'⟩ := htouches name hname
      exact ⟨command', List.mem_cons_of_mem _ hmem, hname'⟩
    · refine carryOut_keep_keyed hcommand (fun m action hbrings htouches => ?_) hm
      exact hstep m action hbrings fun name hname =>
        ⟨command, List.mem_cons_self, htouches name hname⟩

/-- Keyed commands leave the variables in order, and no empty unit. -/
theorem carryOutEach_filed {commands : List Command} (h : ∀ command ∈ commands, command.IsKeyed)
    (hm : m.Filed) : (carryOutEach m commands).Filed :=
  carryOutEach_keep_keyed h
    (fun m _ hbrings _ hm => (m.perform_storeMove hbrings).filed hm) hm

/-- A look-up finds what it found before a run of commands that do not touch its name. -/
theorem carryOutEach_find? {commands : List Command}
    (h : ∀ command ∈ commands, command.IsKeyed ∧ ¬command.Touches name) (hm : m.Filed) :
    (carryOutEach m commands).store.find? name = m.store.find? name := by
  refine (carryOutEach_keep_keyed
    (P := fun m' => m'.Filed ∧ m'.store.find? name = m.store.find? name)
    (fun command hcommand => (h command hcommand).1) ?_ ⟨hm, rfl⟩).2
  rintro m' action hbrings htouches ⟨hfiled, hfind⟩
  have hmove := m'.perform_storeMove hbrings
  refine ⟨hmove.filed hfiled, (hmove.find? hfiled fun hname => ?_).trans hfind⟩
  obtain ⟨command, hcommand, hname'⟩ := htouches name hname
  exact (h command hcommand).2 hname'

/-! ## Keeping a number -/

/-- The number being typed is kept as it is, and named. -/
theorem carryOut_store_eq (hfailed : m.failed = false) (hread : Number.isReadable m.buffer = true)
    (hname : name ≠ "") :
    carryOut m (.store name) =
      act { m with
          store := m.store.insert (m.store.kept 0 name m.buffer m.naming.unit m.naming.color) }
        (.label Target.current.name (some name) .keep) := by
  have hsave : m.store.save name m.buffer m.naming.unit (m.naming.color.map Color.name) =
      .ok (m.store.insert (m.store.kept 0 name m.buffer m.naming.unit m.naming.color)) :=
    Variables.saveAt_eq_ok_iff.2 ⟨hname, hread, _, Color.readOption_map_name _, rfl⟩
  rw [carryOut, keep, if_neg (Bool.eq_false_iff.1 hfailed), act, perform, save, hsave]
  exact done_andThen _ _

/-- It is found with its unit and its colour. -/
theorem carryOut_store (hm : m.Filed) (hfailed : m.failed = false)
    (hread : Number.isReadable m.buffer = true) (hname : name ≠ "") :
    (carryOut m (.store name)).fault = none ∧
      (carryOut m (.store name)).machine.Filed ∧
      ∃ stamp, (carryOut m (.store name)).machine.store.find? name =
        some ⟨name, m.buffer, m.naming.unit, m.naming.color, stamp⟩ := by
  have hstamp := m.store.lt_stamp_kept 0 name m.buffer m.naming.unit m.naming.color
  have hfind := hm.ordered.find?_insert hstamp name
  rw [carryOut_store_eq hfailed hread hname]
  generalize hv : m.store.kept 0 name m.buffer m.naming.unit m.naming.color = v at hstamp hfind ⊢
  have hunit : v.unit ≠ some "" := hv ▸ Naming.unlessEmpty_ne _
  have hinsert : StoreMove (.save v.label v.value none none) m
      { m with store := m.store.insert v } := .insert hstamp hunit rfl
  have hfiled := hinsert.filed hm
  -- naming the number afterwards leaves the variables alone
  have hlabel : StoreMove (.label Target.current.name (some name) .keep)
      { m with store := m.store.insert v } _ := perform_storeMove _ id
  refine ⟨act_label_fault _ _, hlabel.filed hfiled, v.stamp, ?_⟩
  refine (hlabel.find? hfiled id).trans ((hfind.trans (if_pos (hv ▸ rfl))).trans ?_)
  rw [← hv, Variables.kept, Naming.unlessEmpty_of_ne hm.unit]

/-- In the error state, and where the buffer holds no number, keeping is refused. -/
theorem carryOut_store_refused (name : String)
    (h : m.failed = true ∨ Number.isReadable m.buffer = false) :
    ∃ fault, carryOut m (.store name) = refused m fault := by
  cases hfailed : m.failed with
  | true =>
    refine ⟨.nothingToSave, ?_⟩
    rw [carryOut, keep, if_pos hfailed]
  | false =>
    rw [carryOut, keep, if_neg (Bool.eq_false_iff.1 hfailed), act, perform, save]
    cases hsave : m.store.save name m.buffer m.naming.unit (m.naming.color.map Color.name) with
    | error fault => exact ⟨fault, rfl⟩
    | ok vs =>
      obtain ⟨-, hread, -⟩ := Variables.saveAt_eq_ok_iff.1 hsave
      rcases h with h | h
      · cases hfailed.symm.trans h
      · cases hread.symm.trans h

/-! ## Typing it again -/

/-- Typing a variable overwrites the number being typed, and starts one where none is. -/
theorem carryOut_retrieve (hm : m.Sound) (hfailed : m.failed = false) {v : Variable}
    (hfind : m.store.find? name = some v) :
    carryOut m (.act (.retrieve name)) =
      done { m with buffer := v.value, naming := ⟨some v.label, v.unit, v.color⟩,
                    settled := false } := by
  have hvariable : m.findVariable name = .ok v := by rw [findVariable, hfind]
  rw [carryOut, act, perform, retrieve, hvariable, checking, typeKept,
    guarded_of_not_failed hfailed]
  have hquiet : m.quiet = m := by rw [quiet, ← hm.notice]
  rw [hquiet, ← hm.intermediate]
  rfl

/-- Commands of keys lead to a machine. If it is not in the error state and its buffer holds a
number, keeping that under a name and, after more commands of keys that leave the variable of the
name alone and do not end in the error state, typing it by its name are not refused. The number then
stands in the buffer with the unit and the colour it had, and nothing else is different from before
it was typed. In any other state keeping is refused and changes nothing. -/
theorem carryOut_retrieve_store (limit : Nat) (hname : name ≠ "") {before : List Command}
    (hbefore : ∀ command ∈ before, command.IsKeyed) :
    let m := carryOutEach (new (.ofLimit limit)) before
    let stored := carryOut m (.store name)
    (m.failed = false → Number.isReadable m.buffer = true →
      stored.fault = none ∧
        ∀ between : List Command,
          (∀ command ∈ between, command.IsKeyed ∧ ¬command.Touches name) →
          let m' := carryOutEach stored.machine between
          m'.failed = false →
          carryOut m' (.act (.retrieve name)) =
            done { m' with
              buffer := m.buffer, naming := ⟨some name, m.naming.unit, m.naming.color⟩,
              settled := false }) ∧
      (m.failed = true ∨ Number.isReadable m.buffer = false →
        ∃ fault, stored = refused m fault) := by
  intro m stored
  have hfiled : m.Filed := carryOutEach_filed hbefore (filed_new limit)
  refine ⟨fun hfailed hread => ?_, carryOut_store_refused name⟩
  obtain ⟨hfault, hstored, stamp, hfind⟩ := carryOut_store hfiled hfailed hread hname
  refine ⟨hfault, fun between hbetween => ?_⟩
  intro m' hfailed'
  -- the machine is one that commands lead to, so nothing but the number is overwritten
  have hsound : m'.Sound := by
    have h := carryOutEach_sound (sound_new limit) (before ++ .store name :: between)
    rwa [carryOutEach, List.foldl_append] at h
  exact carryOut_retrieve hsound hfailed' ((carryOutEach_find? hbetween hstored).trans hfind)

/-- A number with a unit and a colour, typed after an error has been cleared. -/
def bagCommands : List Command := Lexeme.commandsOf "8/0=c 2.50[kg]'bag':red"

/-- Other variables are kept and given up, a calculation fails, and a past one is loaded. -/
def laterCommands : List Command := Lexeme.commandsOf "+3= >sum 1/0= !sum >late @0 7 >seven"

/-- The bag comes back from behind all of that with its unit and its colour. -/
theorem carryOut_retrieve_store_of_bag :
    (∀ command ∈ laterCommands, command.IsKeyed ∧ ¬command.Touches "total") ∧
      ∃ m m', carryOutEach (new (.ofLimit 0)) bagCommands = m ∧ m.failed = false ∧
        (carryOut m (.store "total")).fault = none ∧
        carryOutEach (carryOut m (.store "total")).machine laterCommands = m' ∧
        m'.failed = false ∧
        carryOut m' (.act (.retrieve "total")) =
          done { m' with
            buffer := "2.50", naming := ⟨some "total", some "kg", some .red⟩,
            settled := false } := by
  have hfailed : (carryOutEach (new (.ofLimit 0)) bagCommands).failed = false := by decide +kernel
  have hread : Number.isReadable (carryOutEach (new (.ofLimit 0)) bagCommands).buffer = true := by
    decide +kernel
  have hbuffer : (carryOutEach (new (.ofLimit 0)) bagCommands).buffer = "2.50" := by
    decide +kernel
  have hnaming : (carryOutEach (new (.ofLimit 0)) bagCommands).naming =
      ⟨some "bag", some "kg", some .red⟩ := by decide +kernel
  have hfailed' : (carryOutEach (carryOut (carryOutEach (new (.ofLimit 0)) bagCommands)
      (.store "total")).machine laterCommands).failed = false := by decide +kernel
  have hlater : laterCommands =
      [.act (.operator "+"), .act (.digit "3"), .act .calculate, .store "sum", .act (.digit "1"),
        .act (.operator "/"), .act (.digit "0"), .act .calculate, .act (.forget "sum"),
        .store "late", .act (.load 0), .act (.digit "7"), .store "seven"] := by decide +kernel
  have hbetween : ∀ command ∈ laterCommands, command.IsKeyed ∧ ¬command.Touches "total" := by
    refine fun command h => ⟨⟨_, h⟩, ?_⟩
    rw [hlater] at h
    revert h command
    simp [Command.Touches, Action.Touches]
  have hkeyed : ∀ command ∈ bagCommands, command.IsKeyed := fun command h => ⟨_, h⟩
  obtain ⟨hfault, hretrieve⟩ :=
    (carryOut_retrieve_store 0 (by decide : "total" ≠ "") hkeyed).1 hfailed hread
  have hretrieve := hretrieve laterCommands hbetween hfailed'
  rw [hbuffer, hnaming] at hretrieve
  exact ⟨hbetween, _, _, rfl, hfailed, hfault, rfl, hfailed', hretrieve⟩

end Console

end Keypad
