import Mathlib
import PostFilter.Command.Line
import PostFilter.Fallible

/-!
# How a listing is asked for

A command that lists posts is given with switches on both levels, its operands, and perhaps a limit.
Reading is followed argument by argument. In the end the invocation has every switch that stands on
either level, and the operands as they are.
-/

namespace PostFilter.CommandLine

open Reading

/-- A switch as an argument. -/
def Switch.option : Switch → String
  | verbose => "--verbose"
  | quiet => "--quiet"
  | json => "--json"
  | noColor => "--no-color"
  | all => "--all"

namespace Reading

/-! ## Steps -/

section

variable {r : Reading}

def withSwitches (r : Reading) (ss : List Switch) : Reading :=
  { r with here := { r.here with switches := ss } }

def withLimit (r : Reading) (n : Nat) : Reading :=
  { r with here := { r.here with limit := some n } }

def withOperands (r : Reading) (words : List String) : Reading :=
  { r with operands := words }

theorem read_switch {s : Switch} (hs : s ≠ .all) (hnew : s ∉ r.here.switches)
    (args : List String) :
    r.read (s.option :: args) = (r.withSwitches (s :: r.here.switches)).read args := by
  have hadd : r.addSwitch s = .ok (r.withSwitches (s :: r.here.switches)) := by
    simp [addSwitch, Given.has, hnew, withSwitches]
  rw [read.eq_def]
  cases s with
  | all => exact absurd rfl hs
  | _ => simp [Switch.option, splitOption, long?, hadd]

theorem read_limit {text : String} {n : Nat} (hlevel : r.level = .eval ∨ r.level = .following)
    (hnone : r.here.limit = none) (htext : isOptionLike text = false) (hn : limit? text = some n)
    (args : List String) : r.read ("--limit" :: text :: args) = (r.withLimit n).read args := by
  rw [read.eq_def]
  simp [splitOption, long?, hlevel, htext, addLimit, hnone, hn, withLimit]

theorem read_word {word : String} (hword : word.toList.head? ≠ some '-') (args : List String) :
    r.read (word :: args) =
      match r.level.below? word with
      | some l => (r.descend l).read args
      | none =>
        if r.level.isInner && word == "help" then
          .error (if isTopic r.level args then .help else .usage)
        else
          match r.addOperand word with
          | .ok r => r.read args
          | .error e => .error e := by
  rw [read.eq_def]
  simp only
  split
  · next heq => simp [heq] at hword
  · next heq => simp [heq] at hword
  · next heq => simp [heq] at hword
  · rfl

theorem read_operand {word : String} (hlevel : r.level = .eval ∨ r.level = .following)
    (hword : word.toList.head? ≠ some '-') (haccepts : r.level.accepts r.operands word = true)
    (args : List String) :
    r.read (word :: args) = (r.withOperands (r.operands ++ [word])).read args := by
  have hbelow : r.level.below? word = none := by
    rcases hlevel with h | h <;> simp [h, Level.below?]
  have hinner : r.level.isInner = false := by
    rcases hlevel with h | h <;> simp [h, Level.isInner]
  simp [read_word hword, hbelow, hinner, addOperand, haccepts, withOperands]

/-! ## Runs -/

theorem read_switches {ss : List Switch} (hss : ∀ s ∈ ss, s ≠ .all) (hnodup : ss.Nodup)
    (hnew : ∀ s ∈ ss, s ∉ r.here.switches) (args : List String) :
    r.read (ss.map Switch.option ++ args) =
      (r.withSwitches (ss.reverse ++ r.here.switches)).read args := by
  induction ss generalizing r with
  | nil => rfl
  | cons s ss ih =>
    obtain ⟨hs, hnodup⟩ := List.nodup_cons.mp hnodup
    have hrest : ∀ s' ∈ ss, s' ∉ (r.withSwitches (s :: r.here.switches)).here.switches := by
      intro s' hs' hmem
      rcases List.mem_cons.mp hmem with rfl | hmem
      · exact hs hs'
      · exact hnew s' (by simp [hs']) hmem
    rw [List.map_cons, List.cons_append, read_switch (hss s (by simp)) (hnew s (by simp)),
      ih (fun s' hs' => hss s' (by simp [hs'])) hnodup hrest]
    simp [withSwitches]

theorem read_usernames {us : List String} (hlevel : r.level = .following)
    (hus : ∀ u ∈ us, u.toList.head? ≠ some '-') (args : List String) :
    r.read (us ++ args) = (r.withOperands (r.operands ++ us)).read args := by
  induction us generalizing r with
  | nil => simp [withOperands]
  | cons u us ih =>
    have haccepts : r.level.accepts r.operands u = true := by simp [hlevel, Level.accepts]
    have hrest := ih (r := r.withOperands (r.operands ++ [u])) hlevel
      fun u hu => hus u (by simp [hu])
    rw [List.cons_append, read_operand (.inr hlevel) (hus u (by simp)) haccepts, hrest]
    simp [withOperands]

end

/-! ## Where operands come from -/

section

variable {r r' : Reading}

theorem operands_addSwitch {s : Switch} (h : r.addSwitch s = .ok r') :
    r'.operands = r.operands := by
  unfold addSwitch at h
  split at h <;> cases h
  rfl

theorem operands_addSnapshot {path : String} (h : r.addSnapshot path = .ok r') :
    r'.operands = r.operands := by
  unfold addSnapshot at h
  split at h <;> cases h
  rfl

theorem operands_addLimit {text : String} (h : r.addLimit text = .ok r') :
    r'.operands = r.operands := by
  unfold addLimit at h
  split at h <;> cases h
  rfl

theorem operands_addOperand {word : String} (h : r.addOperand word = .ok r') :
    r'.operands = r.operands ++ [word] := by
  unfold addOperand at h
  split at h <;> cases h
  rfl

theorem operands_cluster {cs : List Char} (h : r.cluster cs = .ok r') :
    r'.operands = r.operands := by
  fun_induction cluster r cs with
  | case1 => cases h; rfl
  | case2 r c cs s hs r₁ hr₁ ih => exact (ih h).trans (operands_addSwitch hr₁)
  | _ => cases h

theorem operands_foldlM {words : List String} (h : words.foldlM addOperand r = .ok r') :
    r'.operands = r.operands ++ words := by
  induction words generalizing r with
  | nil => cases h; simp
  | cons w ws ih =>
    rw [List.foldlM_cons] at h
    obtain ⟨r₁, hr₁, h⟩ := Fallible.bind_eq_ok.mp h
    simp [ih h, operands_addOperand hr₁]

/-- Operands are arguments. -/
theorem mem_of_read {args : List String} (h : r.read args = .ok r') :
    ∀ w ∈ r'.operands, w ∈ r.operands ∨ w ∈ args := by
  -- Each step keeps the operands, forgets them for a level below, or appends the word at hand.
  fun_induction read r args <;> grind [operands_addSwitch, operands_addSnapshot, operands_addLimit,
    → operands_addOperand, operands_cluster, → operands_foldlM, noteSnapshot, descend]

end

end Reading

theorem mem_of_parse_eval {inherited : Option String} {args : List String} {i : Invocation}
    {filter : String} {limit : Limit} (h : parse inherited args = .ok i)
    (hi : i.command = .eval filter limit) : filter ∈ args := by
  unfold parse at h
  split at h
  · next r hr =>
    unfold finish at h
    split at h
    · next c hc =>
      split at h <;> cases h
      obtain rfl : c = .eval filter limit := hi
      have hoperands : r.operands = [filter] := by
        unfold command? at hc
        split at hc <;> simp_all
      simpa [start] using mem_of_read hr filter (by simp [hoperands])
    · cases h
  · cases h

/-! ## Whole lines -/

/-- Options for a command that lists posts: switches for the presentation in front of the command
and behind its operands, none of them twice in one place, and a limit that is a number. -/
structure ListingOptions where
  before : List Switch
  after : List Switch
  limit : Option String
  presents : ∀ s ∈ before ++ after, s = .json ∨ s = .quiet ∨ s = .noColor
  before_nodup : before.Nodup
  after_nodup : after.Nodup
  limit_valid : ∀ text ∈ limit, isOptionLike text = false ∧ (limit? text).isSome = true

namespace ListingOptions

/-- The line of a command with these options. -/
def line (o : ListingOptions) (command : String) (operands : List String) : List String :=
  o.before.map Switch.option ++ command :: (operands ++ (o.after.map Switch.option ++
    match o.limit with
    | some text => ["--limit", text]
    | none => []))

def limitMeant (o : ListingOptions) : Limit :=
  match o.limit.bind limit? with
  | some n => .atMost n
  | none => .configured

/-- What such a line asks for. -/
def invocation (o : ListingOptions) (inherited : Option String) (command : Command) :
    Invocation where
  verbose := false
  quiet := decide (.quiet ∈ o.before ++ o.after)
  json := decide (.json ∈ o.before ++ o.after)
  noColor := decide (.noColor ∈ o.before ++ o.after)
  snapshot := inherited
  command := command

variable {o : ListingOptions}

theorem ne_all : ∀ s ∈ o.before ++ o.after, s ≠ .all := by
  intro s hs
  rcases o.presents s hs with rfl | rfl | rfl <;> decide

theorem verbose_notMem : .verbose ∉ o.before ++ o.after := by
  intro hs
  rcases o.presents _ hs with h | h | h <;> cases h

/-- Where the reading of such a line ends. -/
def reading (o : ListingOptions) (l : Level) (operands : List String) : Reading :=
  ⟨l, [⟨o.before.reverse, [], none⟩], ⟨o.after.reverse, [], o.limit.bind limit?⟩, operands⟩

/-- A line is read to its end if the operands of its command are. -/
theorem read_line {command : String} {l : Level} {operands : List String}
    (hlevel : l = .eval ∨ l = .following) (hcommand : Level.program.below? command = some l)
    (hword : command.toList.head? ≠ some '-')
    (hoperands : ∀ above args, (Reading.mk l above .none []).read (operands ++ args) =
      (Reading.mk l above .none operands).read args) :
    Reading.start.read (o.line command operands) = .ok (o.reading l operands) := by
  have hbefore := read_switches (r := .start) (fun s hs => ne_all (o := o) s (by simp [hs]))
    o.before_nodup (fun _ _ => List.not_mem_nil)
  have hafter := read_switches (r := ⟨l, [⟨o.before.reverse, [], none⟩], .none, operands⟩)
    (fun s hs => ne_all (o := o) s (by simp [hs])) o.after_nodup (fun _ _ => List.not_mem_nil)
  simp only [withSwitches, start, Given.none, List.append_nil] at hbefore hafter hoperands
  rw [line, start, Given.none, hbefore, read_word hword]
  simp only [hcommand, descend, Given.none, List.nil_append, hoperands, hafter]
  rw [reading]
  cases hlimit : o.limit with
  | none => rfl
  | some text =>
    obtain ⟨htext, hn⟩ := o.limit_valid text hlimit
    obtain ⟨n, hn⟩ := Option.isSome_iff_exists.mp hn
    simp only [Option.bind_some, hn]
    rw [read_limit hlevel rfl htext hn]
    rfl

section

variable {inherited : Option String} {l : Level} {operands : List String}

theorem has_reading (s : Switch) :
    (o.reading l operands).has s = decide (s ∈ o.before ++ o.after) := by
  simp [reading, has, levels, Given.has]

theorem isConsistent_reading (hinherited : inherited ≠ some "") :
    (o.reading l operands).isConsistent inherited = true := by
  have hverbose := verbose_notMem (o := o)
  have hall : .all ∉ o.before ++ o.after := fun h => ne_all _ h rfl
  rw [List.mem_append, not_or] at hverbose hall
  simp [reading, isConsistent, levels, Given.isConsistent, Given.has, snapshotOn, hinherited,
    hverbose, hall]

theorem limit_reading : (o.reading l operands).limit = o.limitMeant := by
  have hall : .all ∉ o.after := fun h => ne_all _ (List.mem_append_right _ h) rfl
  rw [Reading.limit, if_neg (by simp [reading, Given.has, hall])]
  rfl

theorem finish_reading (hinherited : inherited ≠ some "") {command : Command}
    (hcommand : (o.reading l operands).command? = some command) :
    (o.reading l operands).finish inherited = .ok (o.invocation inherited command) := by
  have hsnapshot : (o.reading l operands).snapshot? inherited = inherited := by
    simp [reading, snapshot?, levels, List.findSome?]
  simp only [finish, hcommand, isConsistent_reading hinherited, has_reading, hsnapshot,
    verbose_notMem, decide_false, if_true]
  rfl

theorem parse_following (hinherited : inherited ≠ some "") {us : List String}
    (hus : ∀ u ∈ us, u.toList.head? ≠ some '-') :
    parse inherited (o.line "following" us) =
      .ok (o.invocation inherited (.following us o.limitMeant)) := by
  have hread : Reading.start.read (o.line "following" us) = .ok (o.reading .following us) :=
    read_line (.inr rfl) rfl (by decide) fun above args =>
      read_usernames (r := ⟨.following, above, .none, []⟩) rfl hus args
  rw [parse, hread]
  refine finish_reading hinherited ?_
  rw [← limit_reading]
  rfl

theorem parse_eval (hinherited : inherited ≠ some "") {filter : String}
    (hfilter : filter.toList.head? ≠ some '-') :
    parse inherited (o.line "eval" [filter]) =
      .ok (o.invocation inherited (.eval filter o.limitMeant)) := by
  have hread : Reading.start.read (o.line "eval" [filter]) = .ok (o.reading .eval [filter]) :=
    read_line (.inl rfl) rfl (by decide) fun above args =>
      read_operand (r := ⟨.eval, above, .none, []⟩) (.inl rfl) hfilter rfl args
  rw [parse, hread]
  refine finish_reading hinherited ?_
  rw [← limit_reading]
  rfl

end

end ListingOptions

end PostFilter.CommandLine
