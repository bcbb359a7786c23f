import Stencil.Proofs.Nesting.Tree
import Stencil.Proofs.Table

/-!
# Playing events

What the events of a tree do to a program in the making. A tag that is open **redirects**
what is written to where its body stands: into the segment of a block or of a macro, or
aside into a capture. Everything else that happens in the body is the same inside and
outside, and `Accumulator.play_into` and `Accumulator.play_capture` say so for any number
of events at once. What is left is to see that a tree played on an empty accumulator is
its program (`Accumulator.finish_play`).
-/

namespace Stencil

open Tag

namespace Accumulator

/-! ### One event -/

/-- Writes an instruction to a segment, wherever one stands. -/
def writeTo (s : Segment) (i : Instr) (a : Accumulator) : Accumulator :=
  match s with
  | .block name => { a with blocks := append name [i] a.blocks }
  | .macroBody name => { a with macros := append name [i] a.macros }

/-- What an event does. -/
def happen (a : Accumulator) : Event → Accumulator
  | .write none i => a.write i
  | .write (some s) i => a.writeTo s i
  | .openBlock name => { a with blocks := append name [] a.blocks }
  | .openMacro name params =>
    { a with params := Table.insert name params a.params, macros := append name [] a.macros }

/-- What some events do, one after the other. -/
def play (events : List Event) (a : Accumulator) : Accumulator :=
  events.foldl happen a

theorem play_append (es fs : List Event) (a : Accumulator) :
    a.play (es ++ fs) = (a.play es).play fs :=
  List.foldl_append

/-! ### Events in an open place -/

/-- The same accumulator in one more place. -/
def enter (f : Frame) (a : Accumulator) : Accumulator :=
  { a with frames := f :: a.frames }

/-- What is not written to where the tree stands happens in any place alike. -/
theorem happen_enter {e : Event} (h : e.here? = none) (f : Frame) (a : Accumulator) :
    (a.enter f).happen e = (a.happen e).enter f := by
  rcases e with ⟨_ | s, i⟩ | name | ⟨name, params⟩
  · cases h
  · cases s <;> rfl
  · rfl
  · rfl

/-- In the place of a capture everything that is written there is collected. -/
theorem play_capture (es : List Event) (written : List Instr) (a : Accumulator) :
    (a.enter (.capture written)).play es =
      (a.play (aside es)).enter (.capture (written ++ here es)) := by
  induction es generalizing written a with
  | nil => simp [play, aside, here]
  | cons e es ih =>
    cases h : e.here? with
    -- what is not written here passes through the capture
    | none =>
      rw [aside, here, List.filter_cons_of_pos (by simp [h]), List.filterMap_cons_none h]
      show ((a.enter (.capture written)).happen e).play es = _
      rw [happen_enter h]
      exact ih written (a.happen e)
    | some i =>
      rcases e with ⟨_ | s, j⟩ | name | ⟨name, params⟩
      · obtain rfl : j = i := Option.some.inj h
        rw [aside, here, List.filter_cons_of_neg (by simp [Event.here?]),
          List.filterMap_cons_some h, List.append_cons]
        exact ih (written ++ [j]) a
      · cases h
      · cases h
      · cases h

/-- Where a segment is active. -/
def frameOf : Segment → Frame
  | .block name => .block name
  | .macroBody name => .macroBody name

/-- While a segment is active everything that is written there is written into it. -/
theorem play_into (s : Segment) (es : List Event) (a : Accumulator) :
    (a.enter (frameOf s)).play es = (a.play (es.map (Event.into s))).enter (frameOf s) := by
  induction es generalizing a with
  | nil => rfl
  | cons e es ih =>
    have hstep : (a.enter (frameOf s)).happen e = (a.happen (e.into s)).enter (frameOf s) := by
      rcases e with ⟨_ | s', i⟩ | name | ⟨name, params⟩
      · cases s <;> rfl
      · cases s' <;> rfl
      · rfl
      · rfl
    show ((a.enter (frameOf s)).happen e).play es = _
    rw [hstep]
    exact ih (a.happen (e.into s))

end Accumulator

/-! ### Segments are opened -/

namespace Tag

/-- Whether one of the events opens the segment. -/
def Segment.OpenedIn (es : List Event) : Segment → Prop
  | .block name => .openBlock name ∈ es
  | .macroBody name => ∃ params, .openMacro name params ∈ es

theorem Segment.OpenedIn.mono {es fs : List Event} {s : Segment} (h : s.OpenedIn es)
    (hsub : ∀ e ∈ es, e.here? = none → e ∈ fs) : s.OpenedIn fs := by
  cases s with
  | block name => exact hsub _ h rfl
  | macroBody name =>
    obtain ⟨params, h⟩ := h
    exact ⟨params, hsub _ h rfl⟩

/-- Every segment that is written into is opened. -/
def Closed (es : List Event) : Prop :=
  ∀ s i, .write (some s) i ∈ es → s.OpenedIn es

namespace Closed

variable {es fs : List Event}

theorem nil : Closed [] :=
  fun _ _ h => absurd h List.not_mem_nil

theorem append (hes : Closed es) (hfs : Closed fs) : Closed (es ++ fs) := by
  intro s i h
  rcases List.mem_append.mp h with h | h
  · exact (hes s i h).mono fun e he _ => List.mem_append_left fs he
  · exact (hfs s i h).mono fun e he _ => List.mem_append_right es he

theorem here (i : Instr) : Closed [.write none i] := by
  intro s j h
  simp at h

theorem aside (hes : Closed es) : Closed (aside es) := by
  intro s i h
  have hmem := (List.mem_filter.mp h).1
  exact (hes s i hmem).mono fun e he hnone => List.mem_filter.mpr ⟨he, by simp [hnone]⟩

/-- What is written while a segment is active is written into that one, which is open. -/
theorem into {s : Segment} (hes : Closed es) (hfs : Closed fs) (hopen : s.OpenedIn fs) :
    Closed (fs ++ es.map (Event.into s)) := by
  intro s' i h
  rcases List.mem_append.mp h with h | h
  · exact (hfs s' i h).mono fun e he _ => List.mem_append_left _ he
  · obtain ⟨e, he, heq⟩ := List.mem_map.mp h
    rcases e with ⟨_ | s₁, j⟩ | name | ⟨name, params⟩
    · cases heq
      exact hopen.mono fun e he _ => List.mem_append_left _ he
    · cases heq
      refine (hes s' i he).mono fun e he hnone => List.mem_append_right fs ?_
      refine List.mem_map.mpr ⟨e, he, ?_⟩
      rcases e with ⟨_ | s₁, j⟩ | name | ⟨name, params⟩
      · cases hnone
      · rfl
      · rfl
      · rfl
    · cases heq
    · cases heq

end Closed

mutual

theorem Node.closed : ∀ n : Node, Closed n.events
  | .leaf i => Closed.here i
  | .branch branches otherwise => by
    rw [Node.events]
    exact ((branchEvents_closed branches).aside.append (eventsOf_closed otherwise).aside).append
      (Closed.here _)
  | .loop head body otherwise => by
    rw [Node.events]
    exact ((eventsOf_closed body).aside.append (eventsOf_closed otherwise).aside).append
      (Closed.here _)
  | .capture name body => by
    rw [Node.events]
    exact (eventsOf_closed body).aside.append (Closed.here _)
  | .valueBlock name value => by
    rw [Node.events]
    have hes : Closed [.write none (.output value)] := Closed.here _
    have hfs : Closed [.write none (.callBlock name), .openBlock name] := by
      intro s i h
      simp at h
    exact hes.into (s := .block name) hfs (by simp [Segment.OpenedIn])
  | .block name body => by
    rw [Node.events]
    have hfs : Closed [.write none (.callBlock name), .openBlock name] := by
      intro s i h
      simp at h
    exact (eventsOf_closed body).into (s := .block name) hfs (by simp [Segment.OpenedIn])
  | .macroDef name params body => by
    rw [Node.events]
    have hfs : Closed [.openMacro name params] := by
      intro s i h
      simp at h
    exact (eventsOf_closed body).into (s := .macroBody name) hfs (by simp [Segment.OpenedIn])

theorem eventsOf_closed : ∀ ns : List Node, Closed (eventsOf ns)
  | [] => Closed.nil
  | n :: ns => by
    rw [eventsOf]
    exact n.closed.append (eventsOf_closed ns)

theorem branchEvents_closed : ∀ branches : List (Expr × List Node), Closed (branchEvents branches)
  | [] => Closed.nil
  | (_, body) :: rest => by
    rw [branchEvents]
    exact (eventsOf_closed body).append (branchEvents_closed rest)

end

end Tag

/-! ### The program of a tree -/

namespace Tag

/-- Whether an event opens the segment or writes into it. -/
def Event.touches (s : Segment) : Event → Bool
  | .write none _ => false
  | .write (some s') _ => s' = s
  | .openBlock name => s = .block name
  | .openMacro name _ => s = .macroBody name

/-- What does not touch a segment writes nothing into it. -/
theorem inside?_of_not_touches {e : Event} {s : Segment} (h : e.touches s = false) :
    e.inside? s = none := by
  rcases e with ⟨_ | s', i⟩ | name | ⟨name, params⟩
  · rfl
  · rw [Event.inside?, if_neg (of_decide_eq_false h)]
  · rfl
  · rfl

theorem contents_of_not_touched {es : List Event} {s : Segment}
    (h : es.any (Event.touches s) = false) : contents s es = [] := by
  rw [contents, List.filterMap_eq_nil_iff]
  intro e he
  exact inside?_of_not_touches (by simpa using List.any_eq_false.mp h e he)

/-- In a tree the segments that are touched are those that are opened. -/
theorem any_touches_iff {es : List Event} (h : Closed es) (s : Segment) :
    es.any (Event.touches s) ↔ s.OpenedIn es := by
  rw [List.any_eq_true]
  constructor
  · rintro ⟨e, he, htouch⟩
    rcases e with ⟨_ | s', i⟩ | name | ⟨name, params⟩
    · cases htouch
    · obtain rfl : s' = s := of_decide_eq_true htouch
      exact h s' i he
    · obtain rfl : s = .block name := of_decide_eq_true htouch
      exact he
    · obtain rfl : s = .macroBody name := of_decide_eq_true htouch
      exact ⟨params, he⟩
  · intro hopen
    cases s with
    | block name => exact ⟨_, hopen, decide_eq_true rfl⟩
    | macroBody name =>
      obtain ⟨params, he⟩ := hopen
      exact ⟨_, he, decide_eq_true rfl⟩

theorem mem_blocksOf {es : List Event} {name : String} :
    name ∈ blocksOf es ↔ (Segment.block name).OpenedIn es := by
  rw [blocksOf, List.mem_filterMap]
  constructor
  · rintro ⟨e, he, h⟩
    cases e with
    | openBlock name' =>
      cases h
      exact he
    | write | openMacro => cases h
  · intro h
    exact ⟨_, h, rfl⟩

theorem mem_macrosOf {es : List Event} {name : String} {params : Params} :
    (name, params) ∈ macrosOf es ↔ .openMacro name params ∈ es := by
  rw [macrosOf, List.mem_filterMap]
  constructor
  · rintro ⟨e, he, h⟩
    cases e with
    | openMacro name' params' =>
      cases h
      exact he
    | write | openBlock => cases h
  · intro h
    exact ⟨_, h, rfl⟩

end Tag

namespace Accumulator

/-- What stands in a segment, if there is one. -/
def segment? (a : Accumulator) : Segment → Option (List Instr)
  | .block name => Table.find? name a.blocks
  | .macroBody name => Table.find? name a.macros

theorem find?_append (name other : String) (more : List Instr) (t : Table (List Instr)) :
    Table.find? other (append name more t) =
      if other = name then some ((Table.find? other t).getD [] ++ more)
      else Table.find? other t := by
  rw [append, Table.find?_insert]
  by_cases h : other = name
  · rw [if_pos h, if_pos h, h]
  · rw [if_neg h, if_neg h]

/-- What an event at the root does to a segment. -/
theorem segment?_happen {a : Accumulator} (hroot : a.frames = []) (e : Event) (s : Segment) :
    (a.happen e).segment? s =
      if e.touches s then some ((a.segment? s).getD [] ++ (e.inside? s).toList)
      else a.segment? s := by
  rcases e with ⟨_ | s', i⟩ | name | ⟨name, params⟩
  · cases s <;> simp [happen, write, hroot, segment?, Event.touches]
  · by_cases h : s' = s
    · subst h
      cases s' <;> simp [happen, writeTo, segment?, Event.touches, Event.inside?, find?_append]
    · cases s' <;> cases s <;>
        simp_all [happen, writeTo, segment?, Event.touches, find?_append, eq_comm]
  · cases s <;> simp [happen, segment?, Event.touches, Event.inside?, find?_append]
  · cases s <;> simp [happen, segment?, Event.touches, Event.inside?, find?_append]

/-- No event at the root opens a place. -/
theorem frames_happen {a : Accumulator} (hroot : a.frames = []) (e : Event) :
    (a.happen e).frames = [] := by
  rcases e with ⟨_ | s, i⟩ | name | ⟨name, params⟩
  · simp [happen, write, hroot]
  · cases s <;> exact hroot
  · exact hroot
  · exact hroot

/-- Playing one more event. -/
theorem play_concat (es : List Event) (e : Event) (a : Accumulator) :
    a.play (es ++ [e]) = (a.play es).happen e :=
  play_append es [e] a

theorem frames_play (es : List Event) : (({} : Accumulator).play es).frames = [] := by
  induction es using List.reverseRecOn with
  | nil => rfl
  | append_singleton es e ih =>
    rw [play_concat]
    exact frames_happen ih e

/-- What is written where the tree stands goes to the main segment. -/
theorem main_play (es : List Event) : (({} : Accumulator).play es).main = here es := by
  induction es using List.reverseRecOn with
  | nil => rfl
  | append_singleton es e ih =>
    have hroot := frames_play es
    rw [play_concat, here, List.filterMap_append, ← here, ← ih]
    rcases e with ⟨_ | s, i⟩ | name | ⟨name, params⟩
    · simp [happen, write, hroot, Event.here?]
    · cases s <;> simp [happen, writeTo, Event.here?]
    · simp [happen, Event.here?]
    · simp [happen, Event.here?]

theorem params_play (es : List Event) :
    (({} : Accumulator).play es).params = Table.ofEntries (macrosOf es) := by
  induction es using List.reverseRecOn with
  | nil => rfl
  | append_singleton es e ih =>
    have hroot := frames_play es
    rw [play_concat, macrosOf, List.filterMap_append, ← macrosOf]
    rcases e with ⟨_ | s, i⟩ | name | ⟨name, params⟩
    · simp [happen, write, hroot, ih]
    · cases s <;> simp [happen, writeTo, ih]
    · simp [happen, ih]
    · simp [happen, ih, Table.ofEntries_concat]

/-- A segment that is touched has what is written into it, in that order. -/
theorem segment?_play (es : List Event) (s : Segment) :
    (({} : Accumulator).play es).segment? s =
      if es.any (Event.touches s) then some (contents s es) else none := by
  induction es using List.reverseRecOn with
  | nil => cases s <;> rfl
  | append_singleton es e ih =>
    have hcontents : contents s (es ++ [e]) = contents s es ++ (e.inside? s).toList := by
      cases h : e.inside? s <;> simp [contents, h]
    rw [play_concat, segment?_happen (frames_play es), ih, hcontents, List.any_append,
      List.any_cons, List.any_nil, Bool.or_false]
    cases htouch : e.touches s with
    | false => simp [inside?_of_not_touches htouch]
    | true =>
      rw [if_pos rfl, Bool.or_true, if_pos rfl]
      -- the first event that touches the segment opens it empty
      cases hes : es.any (Event.touches s) with
      | false =>
        rw [contents_of_not_touched hes]
        rfl
      | true => rfl

/-- The tables of segments stay sorted. -/
theorem sorted_play (es : List Event) :
    (({} : Accumulator).play es).blocks.Sorted ∧ (({} : Accumulator).play es).macros.Sorted := by
  induction es using List.reverseRecOn with
  | nil => exact ⟨Table.sorted_nil, Table.sorted_nil⟩
  | append_singleton es e ih =>
    have hroot := frames_play es
    obtain ⟨hblocks, hmacros⟩ := ih
    rw [play_concat]
    rcases e with ⟨_ | ⟨name⟩ | ⟨name⟩, i⟩ | name | ⟨name, params⟩
    · simpa [happen, write, hroot] using And.intro hblocks hmacros
    · exact ⟨hblocks.insert _ _, hmacros⟩
    · exact ⟨hblocks, hmacros.insert _ _⟩
    · exact ⟨hblocks.insert _ _, hmacros⟩
    · exact ⟨hblocks, hmacros.insert _ _⟩

theorem blocks_play {es : List Event} (h : Closed es) :
    (({} : Accumulator).play es).blocks =
      Table.ofEntries ((blocksOf es).map fun name => (name, contents (.block name) es)) := by
  refine Table.Sorted.ext (sorted_play es).1 (Table.sorted_ofEntries _) fun name => ?_
  rw [Table.find?_ofEntries_map]
  refine (segment?_play es (.block name)).trans (if_congr ?_ rfl rfl)
  rw [any_touches_iff h, mem_blocksOf]

/-- The macros of a program in the making, with their parameters. -/
theorem find?_finish_macros (a : Accumulator) (name : String) :
    Table.find? name a.finish.macros = (a.segment? (.macroBody name)).map fun body =>
      { params := (Table.find? name a.params).getD [], body } :=
  Table.find?_map (fun name body => MacroDef.mk ((Table.find? name a.params).getD []) body) name _

theorem macros_play {es : List Event} (h : Closed es) :
    (({} : Accumulator).play es).finish.macros = Table.ofEntries ((macrosOf es).map fun m =>
      (m.1, { params := m.2, body := contents (.macroBody m.1) es })) := by
  refine Table.Sorted.ext ?_ (Table.sorted_ofEntries _) fun name => ?_
  · exact (sorted_play es).2.map fun name body =>
      MacroDef.mk ((Table.find? name (({} : Accumulator).play es).params).getD []) body
  rw [Table.ofEntries_map fun name params => MacroDef.mk params (contents (.macroBody name) es),
    Table.find?_map fun name params => MacroDef.mk params (contents (.macroBody name) es),
    find?_finish_macros, segment?_play, params_play]
  have hopened : es.any (Event.touches (.macroBody name)) ↔
      ∃ params, (name, params) ∈ macrosOf es := by
    simp only [any_touches_iff h, Segment.OpenedIn, mem_macrosOf]
  -- the macro is there exactly if its parameters are
  cases hfind : Table.find? name (Table.ofEntries (macrosOf es)) with
  | none =>
    have hnot : ¬ ∃ params, (name, params) ∈ macrosOf es := by
      rintro ⟨params, hmem⟩
      exact Table.find?_ofEntries_eq_none_iff.mp hfind _ hmem rfl
    rw [if_neg (mt hopened.mp hnot)]
    rfl
  | some params =>
    have hmem := Table.mem_of_find?_ofEntries hfind
    rw [if_pos (hopened.mpr ⟨params, hmem⟩)]
    rfl

/-- **A tree that is played from the start is its program.** -/
theorem finish_play (nodes : List Node) :
    (({} : Accumulator).play (eventsOf nodes)).finish = program nodes := by
  have hclosed := eventsOf_closed nodes
  have hmain := main_play (eventsOf nodes)
  have hblocks := blocks_play hclosed
  have hmacros := macros_play hclosed
  rw [program, ← hmain, ← hblocks, ← hmacros]
  rfl

end Accumulator

end Stencil
