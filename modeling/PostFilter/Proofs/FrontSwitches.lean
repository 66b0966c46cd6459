import PostFilter.Proofs.CommandLines

/-!
# Switches in front of a line

A switch that is put in front of a whole line is given on the level of the program, whatever the
line goes on with. A line that is understood is still understood with switches in front that it does
not have, and asks for the same under these switches.
-/

namespace PostFilter

namespace CommandLine.Reading

variable {r r' : Reading} {s : Switch} {ss : List Switch}

/-! ## Switches that are not given -/

/-- None of the switches is given on any level. -/
def Lacks (r : Reading) (ss : List Switch) : Prop :=
  ∀ s ∈ ss, r.has s = false

theorem has_eq (r : Reading) (s : Switch) :
    r.has s = (r.above.any (·.has s) || r.here.has s) := by
  simp [has, levels]

theorem has_addSwitch {s' : Switch} (h : r.addSwitch s' = .ok r') :
    r'.has s = (s == s' || r.has s) := by
  unfold addSwitch at h
  split at h <;> cases h
  simp only [has_eq, Given.has, List.contains_cons]
  exact Bool.or_left_comm ..

theorem has_noteSnapshot (r : Reading) (path : String) : (r.noteSnapshot path).has s = r.has s := by
  simp [has_eq, Given.has, noteSnapshot]

theorem has_addSnapshot {path : String} (h : r.addSnapshot path = .ok r') :
    r'.has s = r.has s := by
  unfold addSnapshot at h
  split at h <;> cases h
  exact has_noteSnapshot r path

theorem has_addLimit {text : String} (h : r.addLimit text = .ok r') : r'.has s = r.has s := by
  unfold addLimit at h
  split at h <;> cases h
  simp [has_eq, Given.has]

theorem has_addOperand {word : String} (h : r.addOperand word = .ok r') : r'.has s = r.has s := by
  unfold addOperand at h
  split at h <;> cases h
  rfl

theorem has_descend (r : Reading) (l : Level) : (r.descend l).has s = r.has s := by
  simp [has_eq, descend, Given.has, Given.none]

theorem has_foldlM {words : List String} (h : words.foldlM addOperand r = .ok r') :
    r'.has s = r.has s := by
  induction words generalizing r with
  | nil => cases h; rfl
  | cons w ws ih =>
    rw [List.foldlM_cons] at h
    obtain ⟨r₁, hr₁, h⟩ := Fallible.bind_eq_ok.mp h
    rw [ih h, has_addOperand hr₁]

theorem lacks_addSwitch (h : r.addSwitch s = .ok r') :
    r'.Lacks ss ↔ s ∉ ss ∧ r.Lacks ss := by
  simp only [Lacks, has_addSwitch h, Bool.or_eq_false_iff, beq_eq_false_iff_ne]
  grind

theorem lacks_of_cluster {cs : List Char} (h : r.cluster cs = .ok r') (hss : r'.Lacks ss) :
    r.Lacks ss := by
  fun_induction cluster r cs with
  | case1 =>
    cases h
    exact hss
  | case2 r c cs s hs r₁ hr₁ ih => exact ((lacks_addSwitch hr₁).mp (ih h)).2
  | _ => cases h

/-- No switch is lost on the way. -/
theorem lacks_of_read {args : List String} (h : r.read args = .ok r') (hss : r'.Lacks ss) :
    r.Lacks ss := by
  fun_induction read r args <;> grind [Lacks, has_addSwitch, lacks_of_cluster, has_addSnapshot,
    has_addLimit, has_addOperand, has_foldlM, has_noteSnapshot, has_descend]

/-! ## More switches on the level of the program -/

/-- The same reading with more switches on the level of the program. -/
def withFront (ss : List Switch) (r : Reading) : Reading :=
  match r.above with
  | [] => { r with here := { r.here with switches := r.here.switches ++ ss } }
  | g :: gs => { r with above := { g with switches := g.switches ++ ss } :: gs }

@[simp] theorem level_withFront (r : Reading) : (r.withFront ss).level = r.level := by
  unfold withFront
  split <;> rfl

@[simp] theorem operands_withFront (r : Reading) : (r.withFront ss).operands = r.operands := by
  unfold withFront
  split <;> rfl

@[simp] theorem snapshots_withFront (r : Reading) :
    (r.withFront ss).here.snapshots = r.here.snapshots := by
  unfold withFront
  split <;> rfl

@[simp] theorem limit_withFront (r : Reading) :
    (r.withFront ss).here.limit = r.here.limit := by
  unfold withFront
  split <;> rfl

theorem addSwitch_withFront (hs : s ∉ ss) (h : r.addSwitch s = .ok r') :
    (r.withFront ss).addSwitch s = .ok (r'.withFront ss) := by
  unfold addSwitch at h
  split at h <;> cases h
  next hnew =>
    rw [Bool.not_eq_true, Given.has, List.contains_eq_mem, decide_eq_false_iff_not] at hnew
    unfold withFront addSwitch
    split <;> simp_all [Given.has]

theorem noteSnapshot_withFront (r : Reading) (path : String) :
    (r.withFront ss).noteSnapshot path = (r.noteSnapshot path).withFront ss := by
  unfold withFront noteSnapshot
  split <;> simp_all

theorem addSnapshot_withFront {path : String} (h : r.addSnapshot path = .ok r') :
    (r.withFront ss).addSnapshot path = .ok (r'.withFront ss) := by
  unfold addSnapshot at h ⊢
  split at h <;> cases h
  rw [snapshots_withFront, if_neg ‹_›, noteSnapshot_withFront]

theorem addLimit_withFront {text : String} (h : r.addLimit text = .ok r') :
    (r.withFront ss).addLimit text = .ok (r'.withFront ss) := by
  unfold addLimit at h ⊢
  split at h <;> cases h
  next hlimit hn =>
    rw [limit_withFront]
    simp only [hlimit, hn]
    unfold withFront
    split <;> simp_all

theorem addOperand_withFront {word : String} (h : r.addOperand word = .ok r') :
    (r.withFront ss).addOperand word = .ok (r'.withFront ss) := by
  unfold addOperand at h ⊢
  split at h <;> cases h
  next haccepts =>
    rw [level_withFront, operands_withFront, if_pos haccepts]
    unfold withFront
    split <;> simp_all

theorem descend_withFront (r : Reading) (l : Level) :
    (r.withFront ss).descend l = (r.descend l).withFront ss := by
  unfold withFront descend
  split <;> simp_all

theorem cluster_withFront {cs : List Char} (h : r.cluster cs = .ok r') (hss : r'.Lacks ss) :
    (r.withFront ss).cluster cs = .ok (r'.withFront ss) := by
  fun_induction cluster r cs with
  | case1 =>
    cases h
    rfl
  | case2 r c cs s hs r₁ hr₁ ih =>
    have hnew := ((lacks_addSwitch hr₁).mp (lacks_of_cluster h hss)).1
    simp only [cluster, hs, addSwitch_withFront hnew hr₁]
    exact ih h
  | _ => cases h

theorem foldlM_withFront {words : List String} (h : words.foldlM addOperand r = .ok r') :
    words.foldlM addOperand (r.withFront ss) = .ok (r'.withFront ss) := by
  induction words generalizing r with
  | nil => cases h; rfl
  | cons w ws ih =>
    rw [List.foldlM_cons] at h ⊢
    obtain ⟨r₁, hr₁, h⟩ := Fallible.bind_eq_ok.mp h
    exact Fallible.bind_eq_ok.mpr ⟨_, addOperand_withFront hr₁, ih h⟩

/-- Reading goes on as it would without the switches, if none of them is given later. -/
theorem read_withFront {args : List String} (h : r.read args = .ok r') (hss : r'.Lacks ss) :
    (r.withFront ss).read args = .ok (r'.withFront ss) := by
  fun_induction read r args with
  | case1 =>
    cases h
    rfl
  | case2 r arg rest harg =>
    rw [read.eq_def]
    simp only [harg]
    exact foldlM_withFront h
  | case3 r arg rest cs hcs harg name s hlong r₁ hr₁ hsplit ih =>
    -- on the level of the program the switch would be there twice if it were one of those in front
    have hnew := ((lacks_addSwitch hr₁).mp (lacks_of_read h hss)).1
    rw [read.eq_def]
    simp only [harg, hsplit, level_withFront, hlong, addSwitch_withFront hnew hr₁]
    exact ih h
  | case7 r arg rest cs hcs harg name path hlong r₁ hr₁ hsplit ih =>
    rw [read.eq_def]
    simp only [harg, hsplit, level_withFront, hlong, addSnapshot_withFront hr₁]
    exact ih h
  | case9 r arg rest cs hcs harg name text hlong r₁ hr₁ hsplit ih =>
    rw [read.eq_def]
    simp only [harg, hsplit, level_withFront, hlong, addLimit_withFront hr₁]
    exact ih h
  | case12 r arg cs hcs harg name hlong path rest hpath hpost hsplit ih =>
    rw [read.eq_def]
    simp only [harg, hsplit, level_withFront, hlong, hpath, hpost, if_true, noteSnapshot_withFront]
    exact ih h
  | case13 r arg cs hcs harg name hlong path rest hpath hpost r₁ hr₁ hsplit ih =>
    rw [read.eq_def]
    simp only [harg, hsplit, level_withFront, hlong, hpath, hpost, addSnapshot_withFront hr₁]
    exact ih h
  | case17 r arg cs hcs harg name hlong text rest htext r₁ hr₁ hsplit ih =>
    rw [read.eq_def]
    simp only [harg, hsplit, level_withFront, hlong, htext, addLimit_withFront hr₁]
    exact ih h
  | case21 r arg rest c cs hcs hc harg r₁ hr₁ ih =>
    rw [read.eq_def]
    simp only [harg, cluster_withFront hr₁ (lacks_of_read h hss)]
    exact ih h
  | case23 r arg rest l hbelow hdashes hlong hshort ih =>
    rw [read.eq_def]
    simp only [level_withFront, hbelow, descend_withFront]
    exact ih h
  | case25 r arg rest hbelow hhelp r₁ hr₁ hdashes hlong hshort ih =>
    rw [read.eq_def]
    simp only [level_withFront, hbelow, hhelp, addOperand_withFront hr₁]
    exact ih h
  | _ => cases h

/-! ## The result -/

theorem exists_levels_withFront (ss : List Switch) (r : Reading) : ∃ g gs, r.levels = g :: gs ∧
    (r.withFront ss).levels = { g with switches := g.switches ++ ss } :: gs := by
  unfold withFront levels
  cases r.above with
  | nil => exact ⟨_, _, rfl, rfl⟩
  | cons g gs => exact ⟨_, _, rfl, rfl⟩

theorem has_withFront (ss : List Switch) (r : Reading) (s : Switch) :
    (r.withFront ss).has s = (r.has s || ss.contains s) := by
  obtain ⟨g, gs, hr, hfront⟩ := exists_levels_withFront ss r
  simp only [has, hr, hfront, List.any_cons, Given.has]
  grind

theorem snapshot?_withFront (inherited : Option String) (r : Reading) :
    (r.withFront ss).snapshot? inherited = r.snapshot? inherited := by
  obtain ⟨g, gs, hr, hfront⟩ := exists_levels_withFront ss r
  simp only [snapshot?, hr, hfront, List.reverse_cons, List.findSome?_append,
    List.findSome?_singleton]

theorem command?_withFront (hall : .all ∉ ss) (r : Reading) :
    (r.withFront ss).command? = r.command? := by
  have hhere : (r.withFront ss).here.has .all = r.here.has .all := by
    unfold withFront Given.has
    split <;> simp_all
  have hlimit : (r.withFront ss).limit = r.limit := by
    unfold limit
    rw [hhere, limit_withFront]
  unfold command?
  rw [level_withFront, operands_withFront, hlimit]

theorem isConsistent_withFront {inherited : Option String} (hall : .all ∉ ss)
    (hboth : ¬((r.withFront ss).has .verbose = true ∧ (r.withFront ss).has .quiet = true))
    (h : r.isConsistent inherited = true) : (r.withFront ss).isConsistent inherited = true := by
  obtain ⟨g, gs, hr, hfront⟩ := exists_levels_withFront ss r
  simp only [isConsistent, hr, List.all_cons, Bool.and_eq_true] at h
  obtain ⟨⟨hg, hsnapshot⟩, hgs⟩ := h
  have hnot : ¬((.verbose ∈ g.switches ∨ .verbose ∈ ss) ∧ (.quiet ∈ g.switches ∨ .quiet ∈ ss)) := by
    rintro ⟨hverbose, hquiet⟩
    exact hboth (by simp [has, hfront, Given.has, hverbose, hquiet])
  have hg' : ({ g with switches := g.switches ++ ss } : Given).isConsistent = true := by
    simp only [Given.isConsistent, Given.has] at hg ⊢
    grind
  simp only [isConsistent, hfront, List.all_cons, Bool.and_eq_true]
  exact ⟨⟨hg', hsnapshot⟩, hgs⟩

end CommandLine.Reading

/-! ## Whole lines -/

/-- The invocation with more switches. -/
def Invocation.withSwitches (i : Invocation) (ss : List CommandLine.Switch) : Invocation :=
  { i with
    verbose := i.verbose || ss.contains .verbose
    quiet := i.quiet || ss.contains .quiet
    json := i.json || ss.contains .json
    noColor := i.noColor || ss.contains .noColor }

/-- The switch is about how answers are shown, and the invocation does not have it. -/
def Invocation.CanGain (i : Invocation) : CommandLine.Switch → Prop
  | .verbose => i.verbose = false
  | .quiet => i.quiet = false
  | .noColor => i.noColor = false
  | .json | .all => False

namespace CommandLine

open Reading

variable {r : Reading} {i : Invocation} {inherited : Option String} {ss : List Switch}

theorem finish_eq_ok : r.finish inherited = .ok i ↔
    ∃ command, r.command? = some command ∧ r.isConsistent inherited = true ∧
      i = ⟨r.has .verbose, r.has .quiet, r.has .json, r.has .noColor, r.snapshot? inherited,
        command⟩ := by
  unfold finish
  split
  · next command hcommand =>
    split
    · next hconsistent => simp [hcommand, hconsistent, eq_comm]
    · next hconsistent => simp [hconsistent]
  · next hcommand => simp [hcommand]

theorem all_notMem_of_canGain (hss : ∀ s ∈ ss, i.CanGain s) : .all ∉ ss :=
  fun hall => hss .all hall

theorem lacks_of_canGain (h : r.finish inherited = .ok i) (hss : ∀ s ∈ ss, i.CanGain s) :
    r.Lacks ss := by
  obtain ⟨command, -, -, rfl⟩ := finish_eq_ok.mp h
  intro s hs
  have hgain := hss s hs
  cases s with
  | verbose | quiet | noColor => exact hgain
  | json | all => exact hgain.elim

theorem finish_withFront (h : r.finish inherited = .ok i) (hall : .all ∉ ss)
    (hboth : ¬((i.withSwitches ss).verbose = true ∧ (i.withSwitches ss).quiet = true)) :
    (r.withFront ss).finish inherited = .ok (i.withSwitches ss) := by
  obtain ⟨command, hcommand, hconsistent, rfl⟩ := finish_eq_ok.mp h
  simp only [Invocation.withSwitches] at hboth
  refine finish_eq_ok.mpr ⟨command, ?_, ?_, ?_⟩
  · rw [command?_withFront hall, hcommand]
  · refine isConsistent_withFront hall ?_ hconsistent
    simpa only [has_withFront] using hboth
  · simp only [Invocation.withSwitches, has_withFront, snapshot?_withFront]

/-- Switches for the presentation can be put in front of a line, unless it would be quiet and
verbose then, and nothing else changes. -/
theorem parse_switches {args : List String} (h : parse inherited args = .ok i) (hnodup : ss.Nodup)
    (hss : ∀ s ∈ ss, i.CanGain s)
    (hboth : ¬((i.withSwitches ss).verbose = true ∧ (i.withSwitches ss).quiet = true)) :
    parse inherited (ss.map Switch.option ++ args) = .ok (i.withSwitches ss) := by
  have hall := all_notMem_of_canGain hss
  have hstart : Reading.start.withSwitches (ss.reverse ++ Reading.start.here.switches) =
      Reading.start.withFront ss.reverse := by
    simp [Reading.withSwitches, withFront, start, Given.none]
  have hreverse : i.withSwitches ss.reverse = i.withSwitches ss := by
    simp [Invocation.withSwitches]
  have hread := read_switches (r := .start) (fun s hs => ne_of_mem_of_not_mem hs hall) hnodup
    (fun _ _ => List.not_mem_nil) args
  unfold parse at h ⊢
  rw [hread, hstart]
  split at h
  · next r hr =>
    have hlacks : r.Lacks ss.reverse := by
      simpa [Lacks] using lacks_of_canGain h hss
    rw [read_withFront hr hlacks, ← hreverse]
    exact finish_withFront h (by simpa using hall) (by rwa [hreverse])
  · cases h

end CommandLine

end PostFilter
