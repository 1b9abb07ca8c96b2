import IoTRepublic.Lib.Escaping

/-!
# IoTRepublic.Lib.Delimited

Frames in a stream that may hold anything between them. A frame opens with a start
symbol, which is escaped everywhere else in it, and its own symbols tell where it
ends.

`Receiver.run` takes a stream symbol by symbol. `run_frames` is the round trip and
`run_resync` the resynchronisation: whatever a receiver has taken before, it is idle
after a whole frame. A receiver may also take an escape symbol and the one behind it
in one step (`Moves`); on a stream in which escaping is well formed this makes no
difference (`run_of_moves`), and on any stream the frames it accepts have been received
one behind the other (`foundIn_of_moves`).

The frames themselves are a parameter: `judge` says of the symbols so far whether the
frame goes on, is accepted or is rejected, and nothing else is known of it. What may stand
between frames is anything without a start symbol. The two ways of reading are kept apart,
since a receiver that reads ahead cannot resynchronise within a frame: it takes a start
symbol behind an escape symbol for an ordinary one.
-/

universe u

/-- What the symbols of a frame say about its end. -/
inductive Verdict
  | more
  | accept
  | reject
  deriving DecidableEq, Repr

/-- A format of frames: how symbols are escaped, what opens a frame, and what its symbols
say of its end. -/
structure FrameFormat (α : Type u) extends Escaping α where
  start : α
  special_start : special start = true
  start_ne_esc : start ≠ esc
  /-- The verdict on the symbols behind the start symbol, escaping undone. -/
  judge : List α → Verdict

/-- What a receiver is in the middle of. -/
inductive Receiver (α : Type u)
  | idle
  /-- A frame with these symbols so far; `escaped` behind an escape symbol. -/
  | within (symbols : List α) (escaped : Bool)
  deriving DecidableEq, Repr

/-- How a frame ends: by its own symbols, for good or bad, or by a start symbol within
it. -/
inductive FrameEvent (α : Type u)
  | accepted (symbols : List α)
  | rejected (symbols : List α)
  /-- A start symbol, which is lost with the frame it interrupts. -/
  | interrupted
  deriving DecidableEq, Repr

namespace FrameFormat

variable {α : Type u} (F : FrameFormat α)

/-- The symbols of one accepted frame: it ends with the last of them, not before. -/
structure Whole (symbols : List α) : Prop where
  accept : F.judge symbols = .accept
  more : ∀ k, 0 < k → k < symbols.length → F.judge (symbols.take k) = .more
  ne_nil : symbols ≠ []

/-- What the end of a frame is, where it ends with these symbols. -/
def eventOf (symbols : List α) : Option (FrameEvent α) :=
  match F.judge symbols with
  | .more => none
  | .accept => some (.accepted symbols)
  | .reject => some (.rejected symbols)

/-- The frame ends somewhere within these symbols. -/
def Ends (symbols : List α) (event : FrameEvent α) : Prop :=
  ∃ k, 0 < k ∧ k ≤ symbols.length ∧ F.eventOf (symbols.take k) = some event
    ∧ ∀ j, 0 < j → j < k → F.judge (symbols.take j) = .more

variable {F}

theorem Whole.ends {symbols : List α} (h : F.Whole symbols) :
    F.Ends symbols (.accepted symbols) := by
  refine ⟨symbols.length, List.length_pos_of_ne_nil h.ne_nil, Nat.le_refl _, ?_, h.more⟩
  rw [List.take_length, eventOf, h.accept]

end FrameFormat

namespace Receiver

open FrameEvent

variable {α : Type u} [DecidableEq α] (F : FrameFormat α)

/-- The frame has these symbols now. -/
def extend (symbols : List α) : Receiver α × Option (FrameEvent α) :=
  match F.judge symbols with
  | .more => (within symbols false, none)
  | .accept => (idle, some (accepted symbols))
  | .reject => (idle, some (rejected symbols))

/-- One symbol. A start symbol within a frame ends that frame, and does not open another
one. -/
def receive : Receiver α → α → Receiver α × Option (FrameEvent α)
  | idle, a => (if a = F.start then within [] false else idle, none)
  | within symbols escaped, a =>
    if a = F.start then (idle, some interrupted)
    else if a = F.esc then (within symbols true, none)
    else extend F (symbols ++ [if escaped then F.flip a else a])

/-- A stream, symbol by symbol: the receiver behind it, and the frames that have ended in
it. -/
def run : Receiver α → List α → Receiver α × List (FrameEvent α)
  | r, [] => (r, [])
  | r, a :: as =>
    let (r, event) := receive F r a
    let (r, events) := run r as
    (r, event.toList ++ events)

/-- A frame as it is sent. -/
def wire (symbols : List α) : List α := F.start :: F.escape symbols

variable {F}

@[simp] theorem run_nil (r : Receiver α) : run F r [] = (r, []) := rfl

theorem run_cons (r : Receiver α) (a : α) (as : List α) :
    run F r (a :: as) = ((run F (receive F r a).1 as).1,
      (receive F r a).2.toList ++ (run F (receive F r a).1 as).2) := rfl

theorem run_append (r : Receiver α) (as bs : List α) :
    run F r (as ++ bs)
      = ((run F (run F r as).1 bs).1, (run F r as).2 ++ (run F (run F r as).1 bs).2) := by
  induction as generalizing r with
  | nil => simp
  | cons a as ih => simp [run_cons, ih]

/-! ### Whole frames -/

/-- Anything but a start symbol is skipped. -/
theorem run_noise {noise : List α} (h : F.start ∉ noise) : run F idle noise = (idle, []) := by
  induction noise with
  | nil => rfl
  | cons a noise ih =>
      rw [List.mem_cons, not_or] at h
      obtain ⟨hne, hnoise⟩ := h
      rw [run_cons, receive, if_neg (Ne.symm hne), ih hnoise]
      rfl

theorem receive_plain {a : α} (h : F.special a = false) (symbols : List α) (escaped : Bool) :
    receive F (within symbols escaped) a
      = extend F (symbols ++ [if escaped then F.flip a else a]) := by
  have hstart : a ≠ F.start := by
    intro heq
    rw [heq, F.special_start] at h
    cases h
  have hesc : a ≠ F.esc := by
    intro heq
    rw [heq, F.special_esc] at h
    cases h
  rw [receive, if_neg hstart, if_neg hesc]

/-- A symbol as it is sent. -/
theorem run_escapeOne (a : α) (symbols : List α) :
    run F (within symbols false) (F.escapeOne a)
      = ((extend F (symbols ++ [a])).1, (extend F (symbols ++ [a])).2.toList) := by
  rw [Escaping.escapeOne]
  split
  · rename_i hspecial
    rw [run_cons, receive, if_neg F.start_ne_esc.symm, if_pos rfl]
    simp [run_cons, receive_plain (F.special_flip a hspecial), F.flip_flip]
  · rename_i hplain
    simp [run_cons, receive_plain (by simpa using hplain)]

/-- The symbols of a frame that does not end with them. -/
theorem run_escape_of_more {symbols as : List α}
    (h : ∀ k, k < as.length → F.judge (symbols ++ as.take (k + 1)) = .more) :
    run F (within symbols false) (F.escape as) = (within (symbols ++ as) false, []) := by
  induction as generalizing symbols with
  | nil => simp [Escaping.escape]
  | cons a as ih =>
      have hfirst : extend F (symbols ++ [a]) = (within (symbols ++ [a]) false, none) := by
        have hjudge := h 0 (Nat.succ_pos _)
        rw [List.take_succ_cons, List.take_zero] at hjudge
        rw [extend, hjudge]
      rw [Escaping.escape, List.flatMap_cons, ← Escaping.escape, run_append, run_escapeOne, hfirst,
        ih]
      · simp
      · intro k hk
        have hjudge := h (k + 1) (Nat.succ_lt_succ hk)
        rwa [List.take_succ_cons, List.append_cons] at hjudge

theorem run_start (as : List α) : run F idle (F.start :: as) = run F (within [] false) as := by
  rw [run_cons, receive, if_pos rfl]
  rfl

omit [DecidableEq α] in
theorem extend_of_eventOf {symbols : List α} {event : FrameEvent α}
    (h : F.eventOf symbols = some event) : extend F symbols = (idle, some event) := by
  rw [FrameFormat.eventOf] at h
  rw [extend]
  split at h
  · simp at h
  · rw [Option.some.inj h]
  · rw [Option.some.inj h]

omit [DecidableEq α] in
theorem start_notMem_escape (as : List α) : F.start ∉ F.escape as := by
  intro hmem
  obtain ⟨a, -, ha⟩ := List.mem_flatMap.mp hmem
  rw [Escaping.escapeOne] at ha
  split at ha
  · rename_i hspecial
    cases List.mem_cons.mp ha with
    | inl heq => exact F.start_ne_esc heq
    | inr hflip =>
        have hplain := F.special_flip a hspecial
        rw [← List.mem_singleton.mp hflip, F.special_start] at hplain
        cases hplain
  · rename_i hplain
    rw [← List.mem_singleton.mp ha, F.special_start] at hplain
    exact hplain rfl

/-- A frame up to the symbol with which it ends. -/
theorem run_escape_concat {symbols : List α} {a : α} {event : FrameEvent α}
    (hevent : F.eventOf (symbols ++ [a]) = some event)
    (hmore : ∀ j, 0 < j → j < (symbols ++ [a]).length →
      F.judge ((symbols ++ [a]).take j) = .more) :
    run F (within [] false) (F.escape (symbols ++ [a])) = (idle, [event]) := by
  have hinit : run F (within [] false) (F.escape symbols) = (within symbols false, []) := by
    refine (run_escape_of_more (fun k hk => ?_)).trans (by simp)
    have hjudge := hmore (k + 1) (Nat.succ_pos k) (by simp; omega)
    rwa [List.take_append_of_le_length (by omega)] at hjudge
  rw [Escaping.escape, List.flatMap_append, ← Escaping.escape, run_append, hinit]
  simp [run_escapeOne, extend_of_eventOf hevent]

/-- What is behind the end of a frame is skipped. -/
theorem run_escape {symbols : List α} {event : FrameEvent α} (h : F.Ends symbols event) :
    run F (within [] false) (F.escape symbols) = (idle, [event]) := by
  obtain ⟨k, hpos, hle, hevent, hmore⟩ := h
  obtain ⟨init, a, hconcat⟩ : ∃ init a, symbols.take k = init ++ [a] := by
    cases List.eq_nil_or_concat (symbols.take k) with
    | inl hnil =>
        have hlength := congrArg List.length hnil
        rw [List.length_take, List.length_nil] at hlength
        omega
    | inr hconcat =>
        obtain ⟨init, a, heq⟩ := hconcat
        exact ⟨init, a, heq.trans List.concat_eq_append⟩
  have hfront : run F (within [] false) (F.escape (symbols.take k)) = (idle, [event]) := by
    rw [hconcat] at hevent ⊢
    refine run_escape_concat hevent fun j hj hlt => ?_
    have hlength := congrArg List.length hconcat
    rw [List.length_take] at hlength
    rw [← hconcat, List.take_take, Nat.min_eq_left (by omega)]
    exact hmore j hj (by omega)
  rw [← List.take_append_drop k symbols, Escaping.escape, List.flatMap_append, ← Escaping.escape,
    ← Escaping.escape, run_append, hfront, run_noise (start_notMem_escape _)]
  rfl

/-- One frame, with anything in front of it. -/
theorem run_frame {noise symbols : List α} {event : FrameEvent α} (hnoise : F.start ∉ noise)
    (h : F.Ends symbols event) :
    run F idle (noise ++ wire F symbols) = (idle, [event]) := by
  rw [run_append, run_noise hnoise, wire, run_start, run_escape h]
  rfl

/-- The round trip: what arrives is every frame of the stream, and nothing else. -/
theorem run_frames {event : List α → FrameEvent α} {frames : List (List α × List α)}
    (h : ∀ frame ∈ frames, F.start ∉ frame.1 ∧ F.Ends frame.2 (event frame.2)) :
    run F idle (frames.flatMap fun frame => frame.1 ++ wire F frame.2)
      = (idle, frames.map fun frame => event frame.2) := by
  induction frames with
  | nil => rfl
  | cons frame frames ih =>
      obtain ⟨hnoise, hends⟩ := h frame List.mem_cons_self
      rw [List.flatMap_cons, run_append, run_frame hnoise hends,
        ih fun later hlater => h later (List.mem_cons_of_mem frame hlater)]
      rfl

/-! ### Resynchronisation -/

/-- After a whole frame the receiver is idle, wherever it has been before. -/
theorem run_wire (r : Receiver α) {symbols : List α} {event : FrameEvent α}
    (h : F.Ends symbols event) :
    run F r (wire F symbols) = (idle, [event])
      ∨ run F r (wire F symbols) = (idle, [interrupted]) := by
  cases r with
  | idle =>
      rw [wire, run_start, run_escape h]
      exact Or.inl rfl
  | within begun escaped =>
      rw [wire, run_cons, receive, if_pos rfl]
      simp [run_noise (start_notMem_escape symbols)]

/-- One frame may be lost, the ones behind it are not. -/
theorem run_resync (r : Receiver α) {symbols : List α} {first : FrameEvent α}
    {event : List α → FrameEvent α} {frames : List (List α × List α)}
    (h : F.Ends symbols first)
    (hframes : ∀ frame ∈ frames, F.start ∉ frame.1 ∧ F.Ends frame.2 (event frame.2)) :
    ∃ happened, (happened = first ∨ happened = interrupted)
      ∧ run F r (wire F symbols ++ frames.flatMap fun frame => frame.1 ++ wire F frame.2)
        = (idle, happened :: frames.map fun frame => event frame.2) := by
  cases run_wire r h with
  | inl hfirst =>
      refine ⟨first, Or.inl rfl, ?_⟩
      rw [run_append, hfirst, run_frames hframes]
      rfl
  | inr hlost =>
      refine ⟨interrupted, Or.inr rfl, ?_⟩
      rw [run_append, hlost, run_frames hframes]
      rfl

/-! ### Reading ahead -/

variable (F) in
/-- The runs of a receiver that may take an escape symbol together with the symbol
behind it, which is then not looked at. -/
inductive Moves : Receiver α → List α → List (FrameEvent α) → Receiver α → Prop
  | nil (r : Receiver α) : Moves r [] [] r
  | one {r r' : Receiver α} {a : α} {as : List α} {events : List (FrameEvent α)}
      (rest : Moves (receive F r a).1 as events r') :
      Moves r (a :: as) ((receive F r a).2.toList ++ events) r'
  | ahead {symbols : List α} {escaped : Bool} {r' : Receiver α} {a : α} {as : List α}
      {events : List (FrameEvent α)}
      (rest : Moves (extend F (symbols ++ [if escaped then a else F.flip a])).1 as events r') :
      Moves (within symbols escaped) (F.esc :: a :: as)
        ((extend F (symbols ++ [if escaped then a else F.flip a])).2.toList ++ events) r'

variable (F) in
/-- Within a frame, no escape symbol is followed by a start symbol or by another escape
symbol. -/
def Unambiguous : Receiver α → List α → Prop
  | _, [] => True
  | idle, a :: as => Unambiguous (receive F idle a).1 as
  | within symbols escaped, a :: as =>
    (a = F.esc → escaped = false ∧ as.head? ≠ some F.start)
      ∧ Unambiguous (receive F (within symbols escaped) a).1 as

/-- Decided symbol by symbol. -/
instance : (r : Receiver α) → (as : List α) → Decidable (Unambiguous F r as)
  | _, [] => .isTrue trivial
  | idle, a :: as => instDecidableUnambiguous (receive F idle a).1 as
  | within symbols escaped, a :: as =>
    have := instDecidableUnambiguous (receive F (within symbols escaped) a).1 as
    inferInstanceAs (Decidable ((a = F.esc → escaped = false ∧ as.head? ≠ some F.start) ∧ _))

variable {r r₁ r₂ : Receiver α} {as bs : List α} {events events' : List (FrameEvent α)}

theorem Moves.trans (h : Moves F r as events r₁) (h' : Moves F r₁ bs events' r₂) :
    Moves F r (as ++ bs) (events ++ events') r₂ := by
  induction h with
  | nil r => exact h'
  | one rest ih =>
      rw [List.cons_append, List.append_assoc]
      exact .one (ih h')
  | ahead rest ih =>
      rw [List.cons_append, List.cons_append, List.append_assoc]
      exact .ahead (ih h')

theorem receive_esc (symbols : List α) (escaped : Bool) :
    receive F (within symbols escaped) F.esc = (within symbols true, none) := by
  rw [receive, if_neg F.start_ne_esc.symm, if_pos rfl]

theorem receive_escaped {symbols : List α} {a : α}
    (h : (receive F r a).1 = within symbols true) : a = F.esc := by
  cases r with
  | idle =>
      rw [receive] at h
      split at h <;> cases h
  | within begun escaped =>
      rw [receive] at h
      split at h
      · cases h
      · split at h
        · assumption
        · rw [extend] at h
          split at h <;> cases h

/-- Where escaping is well formed, reading ahead makes no difference. -/
theorem run_of_moves (h : Moves F r as events r₁) (hplain : Unambiguous F r as) :
    run F r as = (r₁, events) := by
  induction h with
  | nil r => rfl
  | @one r r' a as events rest ih =>
      have hrest : Unambiguous F (receive F r a).1 as := by
        cases r with
        | idle => exact hplain
        | within symbols escaped => exact hplain.2
      rw [run_cons, ih hrest]
  | @ahead symbols escaped r' a as events rest ih =>
      obtain ⟨hesc, hrest⟩ := hplain
      obtain ⟨rfl, hstart⟩ := hesc rfl
      have hne : a ≠ F.start := fun heq => hstart (congrArg some heq)
      rw [receive_esc] at hrest
      obtain ⟨hesc', hrest⟩ := hrest
      have hne' : a ≠ F.esc := fun heq => Bool.noConfusion (hesc' heq).1
      have hreceive : receive F (within symbols true) a = extend F (symbols ++ [F.flip a]) := by
        rw [receive, if_neg hne, if_neg hne', if_pos rfl]
      rw [hreceive] at hrest
      simp only [Bool.false_eq_true, if_false] at ih ⊢
      rw [run_cons, receive_esc, run_cons, hreceive, ih hrest]
      rfl

/-! ### Streams of frames -/

theorem unambiguous_noise {noise : List α} (h : F.start ∉ noise) (hrest : Unambiguous F idle as) :
    Unambiguous F idle (noise ++ as) := by
  induction noise with
  | nil => exact hrest
  | cons a noise ih =>
      rw [List.mem_cons, not_or] at h
      obtain ⟨hne, hnoise⟩ := h
      rw [List.cons_append, Unambiguous, receive, if_neg (Ne.symm hne)]
      exact ih hnoise

theorem unambiguous_plain {a : α} (h : F.special a = false) (r : Receiver α)
    (hrest : Unambiguous F (receive F r a).1 as) : Unambiguous F r (a :: as) := by
  cases r with
  | idle => exact hrest
  | within symbols escaped =>
      refine ⟨fun heq => ?_, hrest⟩
      rw [heq, F.special_esc] at h
      cases h

/-- The receiver is not right behind an escape symbol. -/
def Settled (r : Receiver α) : Prop := ∀ symbols, r ≠ within symbols true

omit [DecidableEq α] in
theorem settled_extend (symbols : List α) : Settled (extend F symbols).1 := by
  intro begun heq
  rw [extend] at heq
  split at heq <;> cases heq

theorem settled_receive {a : α} (h : F.special a = false) (r : Receiver α) :
    Settled (receive F r a).1 := by
  cases r with
  | idle =>
      rw [receive]
      split <;> exact fun symbols heq => by cases heq
  | within symbols escaped =>
      rw [receive_plain h]
      exact settled_extend _

theorem settled_escapeOne (a : α) (r : Receiver α) : Settled (run F r (F.escapeOne a)).1 := by
  rw [Escaping.escapeOne]
  split
  · rename_i hspecial
    exact settled_receive (F.special_flip a hspecial) _
  · rename_i hplain
    exact settled_receive (by simpa using hplain) r

theorem unambiguous_escapeOne (a : α) {r : Receiver α} (hr : Settled r)
    (hrest : Unambiguous F (run F r (F.escapeOne a)).1 as) :
    Unambiguous F r (F.escapeOne a ++ as) := by
  rw [Escaping.escapeOne] at hrest ⊢
  split
  · rename_i hspecial
    have hplain := F.special_flip a hspecial
    rw [if_pos hspecial] at hrest
    have hflip : Unambiguous F (receive F r F.esc).1 (F.flip a :: as) :=
      unambiguous_plain hplain _ hrest
    cases r with
    | idle => exact hflip
    | within symbols escaped =>
        refine ⟨fun _ => ⟨?_, ?_⟩, hflip⟩
        · cases escaped with
          | false => rfl
          | true => exact absurd rfl (hr symbols)
        · intro heq
          rw [Option.some.inj heq, F.special_start] at hplain
          cases hplain
  · rename_i hspecial
    rw [if_neg hspecial] at hrest
    exact unambiguous_plain (by simpa using hspecial) r hrest

theorem unambiguous_escape (symbols : List α) {r : Receiver α} (hr : Settled r)
    (hrest : Unambiguous F (run F r (F.escape symbols)).1 as) :
    Unambiguous F r (F.escape symbols ++ as) := by
  induction symbols generalizing r with
  | nil => exact hrest
  | cons a symbols ih =>
      rw [Escaping.escape, List.flatMap_cons, ← Escaping.escape, run_append] at hrest
      rw [Escaping.escape, List.flatMap_cons, ← Escaping.escape, List.append_assoc]
      exact unambiguous_escapeOne a hr (ih (settled_escapeOne a r) hrest)

/-- A frame is unambiguous for every receiver: a start symbol in the middle of another
frame is looked at. -/
theorem unambiguous_wire (r : Receiver α) {symbols : List α} {event : FrameEvent α}
    (h : F.Ends symbols event) (hrest : Unambiguous F idle as) :
    Unambiguous F r (wire F symbols ++ as) := by
  have hidle : (run F r (wire F symbols)).1 = idle := by
    cases run_wire r h with
    | inl hfirst => rw [hfirst]
    | inr hlost => rw [hlost]
  rw [wire, run_cons] at hidle
  have hbody : Unambiguous F (receive F r F.start).1 (F.escape symbols ++ as) := by
    refine unambiguous_escape symbols ?_ (hidle ▸ hrest)
    intro begun heq
    exact absurd (receive_escaped heq) F.start_ne_esc
  cases r with
  | idle => exact hbody
  | within begun escaped => exact ⟨fun heq => absurd heq F.start_ne_esc, hbody⟩

theorem unambiguous_frames {event : List α → FrameEvent α} {frames : List (List α × List α)}
    (h : ∀ frame ∈ frames, F.start ∉ frame.1 ∧ F.Ends frame.2 (event frame.2)) :
    Unambiguous F idle (frames.flatMap fun frame => frame.1 ++ wire F frame.2) := by
  induction frames with
  | nil => exact trivial
  | cons frame frames ih =>
      obtain ⟨hnoise, hends⟩ := h frame List.mem_cons_self
      rw [List.flatMap_cons, List.append_assoc]
      exact unambiguous_noise hnoise (unambiguous_wire idle hends
        (ih fun later hlater => h later (List.mem_cons_of_mem frame hlater)))

/-! ### Where accepted frames come from -/

variable (F) in
/-- The symbols as they may have been received: each by itself, or behind escape symbols
and perhaps flipped. -/
inductive Spells : List α → List α → Prop
  | nil : Spells [] []
  | snoc {as escapes symbols : List α} {a b : α} (front : Spells as symbols)
      (hescapes : ∀ e ∈ escapes, e = F.esc) (hplain : escapes = [] → b = a)
      (hsymbol : b = a ∨ b = F.flip a) :
      Spells (as ++ escapes ++ [a]) (symbols ++ [b])

variable (F) in
/-- No frame ends within these symbols, so whoever receives them is still within the
frame. -/
def Open (symbols : List α) : Prop :=
  ∀ k, 0 < k → k ≤ symbols.length → F.judge (symbols.take k) = .more

variable (F) in
/-- `rest` is what has been received since the last accepted frame. -/
def Pending (rest : List α) : Receiver α → Prop
  | idle => True
  | within symbols escaped =>
    Open F symbols ∧ ∃ noise as escapes, rest = noise ++ F.start :: (as ++ escapes)
      ∧ Spells F as symbols ∧ (∀ e ∈ escapes, e = F.esc) ∧ (escapes = [] ↔ escaped = false)

/-- The accepted frames among some events. -/
def acceptedOf (events : List (FrameEvent α)) : List (List α) :=
  events.filterMap fun
    | accepted symbols => some symbols
    | _ => none

variable (F) in
/-- The frames stand in the stream one behind the other, each of them whole. -/
def FoundIn (as : List α) (frames : List (List α)) (r : Receiver α) : Prop :=
  ∃ (pieces : List (List α × List α)) (rest : List α),
    as = (pieces.flatMap fun piece => piece.1 ++ F.start :: piece.2) ++ rest
      ∧ List.Forall₂ (fun piece symbols => Spells F piece.2 symbols ∧ F.Whole symbols) pieces frames
      ∧ Pending F rest r

omit [DecidableEq α] in
theorem whole_of_open {symbols : List α} {b : α} (hopen : Open F symbols)
    (haccept : F.judge (symbols ++ [b]) = .accept) : F.Whole (symbols ++ [b]) where
  accept := haccept
  more := by
    intro k hpos hk
    rw [List.length_append, List.length_singleton] at hk
    rw [List.take_append_of_le_length (by omega)]
    exact hopen k hpos (by omega)
  ne_nil := by simp

omit [DecidableEq α] in
/-- One more symbol of the frame that is being received. -/
theorem foundIn_extend {frames : List (List α)} {symbols read : List α} {escaped : Bool} {b : α}
    (h : FoundIn F as frames (within symbols escaped))
    (hread : ∀ {front escapes : List α}, Spells F front symbols → (∀ e ∈ escapes, e = F.esc) →
      (escapes = [] ↔ escaped = false) → Spells F (front ++ escapes ++ read) (symbols ++ [b])) :
    FoundIn F (as ++ read) (frames ++ acceptedOf (extend F (symbols ++ [b])).2.toList)
      (extend F (symbols ++ [b])).1 := by
  obtain ⟨pieces, rest, rfl, hpieces, hopen, noise, front, escapes, rfl, hfront, hescapes, hnone⟩ :=
    h
  have hspells := hread hfront hescapes hnone
  rw [extend]
  split
  · rename_i hmore
    refine ⟨pieces, noise ++ F.start :: (front ++ escapes) ++ read, by simp, by simpa [acceptedOf],
      ?_, noise, front ++ escapes ++ read, [], by simp, hspells, by simp, by simp⟩
    intro k hpos hk
    rw [List.length_append, List.length_singleton] at hk
    by_cases hlast : k = symbols.length + 1
    · rw [hlast, List.take_of_length_le (by simp)]
      exact hmore
    · rw [List.take_append_of_le_length (by omega)]
      exact hopen k hpos (by omega)
  · rename_i haccept
    refine ⟨pieces ++ [(noise, front ++ escapes ++ read)], [], by simp, ?_, trivial⟩
    exact List.rel_append hpieces (.cons ⟨hspells, whole_of_open hopen haccept⟩ .nil)
  · exact ⟨pieces, noise ++ F.start :: (front ++ escapes) ++ read, by simp, by simpa [acceptedOf],
      trivial⟩

theorem foundIn_receive {frames : List (List α)} (h : FoundIn F as frames r) (a : α) :
    FoundIn F (as ++ [a]) (frames ++ acceptedOf (receive F r a).2.toList) (receive F r a).1 := by
  cases r with
  | idle =>
      obtain ⟨pieces, rest, rfl, hpieces, -⟩ := h
      rw [receive]
      refine ⟨pieces, rest ++ [a], by simp, by simpa [acceptedOf], ?_⟩
      split
      · rename_i hstart
        refine ⟨?_, rest, [], [], by simp [hstart], .nil, by simp, by simp⟩
        intro k hpos hk
        exact absurd hpos (Nat.not_lt.mpr hk)
      · trivial
  | within symbols escaped =>
      rw [receive]
      split
      · obtain ⟨pieces, rest, rfl, hpieces, -⟩ := h
        exact ⟨pieces, rest ++ [a], by simp, by simpa [acceptedOf], trivial⟩
      · split
        · rename_i hesc
          obtain ⟨pieces, rest, rfl, hpieces, hopen, noise, front, escapes, rfl, hfront,
            hescapes, -⟩ :=
            h
          refine ⟨pieces, noise ++ F.start :: (front ++ (escapes ++ [a])), by simp,
            by simpa [acceptedOf], hopen, noise, front, escapes ++ [a], rfl, hfront, ?_, ?_⟩
          · intro e he
            cases List.mem_append.mp he with
            | inl he => exact hescapes e he
            | inr he => exact (List.mem_singleton.mp he).trans hesc
          · simp
        · refine foundIn_extend h fun hfront hescapes hnone => .snoc hfront hescapes ?_ ?_
          · intro hnil
            rw [hnone.mp hnil]
            rfl
          · cases escaped with
            | false => exact Or.inl rfl
            | true => exact Or.inr rfl

theorem foundIn_of_moves {frames : List (List α)} (h : FoundIn F as frames r)
    (hmoves : Moves F r bs events r₁) :
    FoundIn F (as ++ bs) (frames ++ acceptedOf events) r₁ := by
  induction hmoves generalizing as frames with
  | nil r => simpa [acceptedOf] using h
  | @one r r' a bs events rest ih =>
      have hone := ih (foundIn_receive h a)
      rwa [List.append_assoc, List.append_assoc, acceptedOf, acceptedOf, ← List.filterMap_append]
        at hone
  | @ahead symbols escaped r' a bs events rest ih =>
      have hspells : ∀ {front escapes : List α}, Spells F front symbols →
          (∀ e ∈ escapes, e = F.esc) → (escapes = [] ↔ escaped = false) →
          Spells F (front ++ escapes ++ [F.esc, a])
            (symbols ++ [if escaped then a else F.flip a]) := by
        intro front escapes hfront hescapes _
        have hassoc : front ++ escapes ++ [F.esc, a] = front ++ (escapes ++ [F.esc]) ++ [a] := by
          simp
        rw [hassoc]
        refine .snoc hfront ?_ (by simp) ?_
        · intro e he
          cases List.mem_append.mp he with
          | inl he => exact hescapes e he
          | inr he => exact List.mem_singleton.mp he
        · cases escaped with
          | false => exact Or.inr rfl
          | true => exact Or.inl rfl
      have hone := ih (foundIn_extend h hspells)
      rwa [List.append_assoc, List.append_assoc, acceptedOf, acceptedOf, ← List.filterMap_append]
        at hone

end Receiver
