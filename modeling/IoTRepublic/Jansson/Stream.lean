import IoTRepublic.Jansson.Utf

/-!
# IoTRepublic.Jansson.Stream

The stream of `jansson2.7/load.c` over a C string: one byte of look-ahead, and
UTF-8 checked one character at a time. The line, the column and the position of
`stream_t`, which only error messages use, are left out.

`string_get` has an `int` for its position in the string. Where that overflows the C
standard says nothing about what follows; the model stops with an error there, so that
nothing is proved of such a run. A text of fewer than 2^31 bytes is read to its end
before it can happen, and `Stream.At` keeps that.

Main results: `Stream.At.get`, what reading ASCII does, and `Stream.Reads.utf8`,
that only UTF-8 is read.
-/

namespace IoTRepublic

open Cpp

namespace LibJansson

/-- `stream->state`: the end of the text and an error last, once they are reached. -/
inductive StreamState
  | ok
  | eof
  | error
  deriving DecidableEq, Repr

/-- What `stream_get` returns: a byte, or one of the two states that are not `ok`. -/
inductive Got
  | byte (c : Byte)
  /-- `STREAM_STATE_EOF`. -/
  | eof
  /-- `STREAM_STATE_ERROR`. -/
  | error
  deriving DecidableEq, Repr

/-- `string_data_t`: the C string, and where `string_get` reads next. -/
structure StringData where
  /-- The bytes of `data` from `pos` on. -/
  rest : Text
  /-- An `int` in the source. -/
  pos : Nat
  deriving DecidableEq, Repr

/-- `stream_t`: a buffer of one UTF-8 sequence at most, filled from the string whenever it
has been read to its end. -/
structure Stream where
  /-- The bytes of `buffer` from `buffer_pos` on. -/
  buffer : Text
  data : StringData
  state : StreamState
  deriving DecidableEq, Repr

/-- `string_get`: the next byte of the string, with `.eof` for `EOF` at its terminator and
`.error` where `pos++` overflows. -/
def stringGet (stream : StringData) : Got × StringData :=
  match stream.rest with
  | [] => (.eof, stream)
  | c :: rest =>
    if c = 0 then (.eof, stream)
    else if 2 ^ 31 ≤ stream.pos + 1 then (.error, stream)
    else (.byte c, { rest, pos := stream.pos + 1 })

/-- What `buffer[i] = stream->get(stream->data)` stores. `EOF` is -1, and where `string_get`
has overflowed the same byte makes `utf8_check_full` fail. -/
def Got.stored : Got → Byte
  | .byte c => c
  | _ => 0xFF

/-- The loop of `stream_get` over the rest of a sequence. -/
def fillBuffer : Nat → StringData → Text × StringData
  | 0, data => ([], data)
  | i + 1, data =>
    let more := fillBuffer i (stringGet data).2
    ((stringGet data).1.stored :: more.1, more.2)

namespace Stream

/-- `stream_init`, for `string_get` at the start of a string. -/
def init (data : Text) : Stream where
  buffer := []
  data := { rest := data, pos := 0 }
  state := .ok

/-- `stream_get`: the next byte of the buffer. An empty buffer is filled with the next
sequence, which has to be UTF-8. -/
def get (stream : Stream) : Got × Stream :=
  match stream.state with
  | .eof => (.eof, stream)
  | .error => (.error, stream)
  | .ok =>
    match stream.buffer with
    | c :: buffer => (.byte c, { stream with buffer })
    | [] =>
      match (stringGet stream.data).1 with
      | .eof => (.eof, { stream with state := .eof })
      | .error => (.error, { stream with state := .error })
      | .byte c =>
        let data := (stringGet stream.data).2
        if 0x80 ≤ c then
          let count := utf8CheckFirst c
          let more := fillBuffer (count - 1) data
          if count = 0 then (.error, { stream with data, state := .error })
          else if utf8CheckFull (c :: more.1) count then
            (.byte c, { stream with buffer := more.1, data := more.2 })
          else (.error, { stream with data := more.2, state := .error })
        else (.byte c, { stream with data })

/-- `stream_unget`: the byte goes back to the front of the buffer. -/
def unget (stream : Stream) : Got → Stream
  | .byte c => { stream with buffer := c :: stream.buffer }
  | _ => stream

/-- A bound on how much there is to read: a byte of the data makes at most three of the
buffer. -/
def size (stream : Stream) : Nat := stream.buffer.length + 4 * stream.data.rest.length

end Stream

/-- How much a byte counts that has been read. -/
def Got.weight : Got → Nat
  | .byte _ => 1
  | _ => 0

/-- A byte that is returned is the first of the rest; otherwise nothing is taken. -/
theorem stringGet_cases (data : StringData) :
    (∃ c, (stringGet data).1 = .byte c ∧ data.rest = c :: (stringGet data).2.rest)
      ∨ (∀ c, (stringGet data).1 ≠ .byte c) ∧ (stringGet data).2 = data := by
  obtain ⟨rest, pos⟩ := data
  cases rest with
  | nil => exact Or.inr ⟨fun c => Got.noConfusion, rfl⟩
  | cons c rest =>
      rw [stringGet]
      dsimp only
      split
      · exact Or.inr ⟨fun c => Got.noConfusion, rfl⟩
      · split
        · exact Or.inr ⟨fun c => Got.noConfusion, rfl⟩
        · exact Or.inl ⟨c, rfl, rfl⟩

theorem length_stringGet_le (data : StringData) :
    (stringGet data).2.rest.length ≤ data.rest.length := by
  obtain ⟨c, -, hrest⟩ | ⟨-, hsame⟩ := stringGet_cases data
  · rw [hrest]
    exact Nat.le_succ _
  · rw [hsame]

theorem length_stringGet_lt {data : StringData} {c : Byte} (h : (stringGet data).1 = .byte c) :
    (stringGet data).2.rest.length < data.rest.length := by
  obtain ⟨b, -, hrest⟩ | ⟨hnone, -⟩ := stringGet_cases data
  · rw [hrest]
    exact Nat.lt_succ_self _
  · exact absurd h (hnone c)

/-- So many bytes are stored, whether the string has them or not. -/
theorem length_fillBuffer (i : Nat) (data : StringData) :
    (fillBuffer i data).1.length = i ∧ (fillBuffer i data).2.rest.length ≤ data.rest.length := by
  induction i generalizing data with
  | zero => exact ⟨rfl, Nat.le_refl _⟩
  | succ i ih =>
      have hnext := ih (stringGet data).2
      exact ⟨by rw [fillBuffer, List.length_cons, hnext.1],
        Nat.le_trans hnext.2 (length_stringGet_le data)⟩

theorem utf8CheckFirst_le (byte : Byte) : utf8CheckFirst byte ≤ 4 := by
  rw [utf8CheckFirst_eq]
  split_ifs <;> omega

/-- A byte that is read is not there any more. -/
theorem Stream.size_get (stream : Stream) :
    stream.get.2.size + stream.get.1.weight ≤ stream.size := by
  rw [get]
  split
  · exact Nat.le_refl _
  · exact Nat.le_refl _
  · split
    · rename_i c buffer hbuffer
      simp only [size, Got.weight, hbuffer, List.length_cons]
      omega
    · rename_i hbuffer
      split
      · exact Nat.le_refl _
      · exact Nat.le_refl _
      · rename_i c hc
        have hlt := length_stringGet_lt hc
        have hfill := length_fillBuffer (utf8CheckFirst c - 1) (stringGet stream.data).2
        have hcount := utf8CheckFirst_le c
        dsimp only
        split_ifs <;> simp only [size, Got.weight, hbuffer, List.length_nil] <;> omega

/-! ### Reading ASCII -/

namespace Stream

variable {stream : Stream} {text : Text} {c : Byte}

/-- What the stream still returns, as long as it is ASCII: the position does not overflow on
the way. -/
structure At (stream : Stream) (text : Text) : Prop where
  text_eq : stream.buffer ++ stream.data.rest = text
  pos_lt : stream.data.pos + stream.data.rest.length < 2 ^ 31
  state : stream.state = .ok ∨ stream.state = .eof ∧ text = []

theorem at_init {data : Text} (h : data.length < 2 ^ 31) : (init data).At data :=
  ⟨rfl, by simpa [init] using h, Or.inl rfl⟩

/-- Reading ASCII takes the first character and leaves the rest; the position stays below
the length of the whole. -/
theorem At.get (h : stream.At (c :: text)) (hascii : c < 0x80) (hc : c ≠ 0) :
    stream.get.1 = .byte c ∧ stream.get.2.At text ∧ stream.get.2.state = .ok := by
  obtain ⟨buffer, ⟨rest, pos⟩, state⟩ := stream
  obtain ⟨htext, hpos, hstate⟩ := h
  have hok : state = .ok := by simpa using hstate
  subst hok
  cases buffer with
  | cons b buffer =>
      obtain ⟨rfl, rfl⟩ := List.cons.inj htext
      exact ⟨rfl, ⟨rfl, hpos, Or.inl rfl⟩, rfl⟩
  | nil =>
      obtain rfl : rest = c :: text := htext
      dsimp only at hpos
      rw [List.length_cons] at hpos
      have hfits : ¬ 2 ^ 31 ≤ pos + 1 := by omega
      have hget : Stream.get ⟨[], ⟨c :: text, pos⟩, .ok⟩
          = (.byte c, ⟨[], ⟨text, pos + 1⟩, .ok⟩) := by
        rw [Stream.get, stringGet]
        dsimp only
        rw [if_neg hc, if_neg hfits]
        dsimp only
        rw [if_neg (UInt8.not_le.mpr hascii)]
      rw [hget]
      exact ⟨rfl, ⟨rfl, by dsimp only; omega, Or.inl rfl⟩, rfl⟩

/-- A byte that is looked at and put back. -/
theorem At.get_unget (h : stream.At (c :: text)) (hascii : c < 0x80) (hc : c ≠ 0) :
    (stream.get.2.unget stream.get.1).At (c :: text) := by
  obtain ⟨hget, hat, hstate⟩ := h.get hascii hc
  rw [hget]
  exact ⟨congrArg (c :: ·) hat.text_eq, hat.pos_lt, Or.inl hstate⟩

theorem At.get_nil (h : stream.At []) : stream.get.1 = .eof ∧ stream.get.2.At [] := by
  obtain ⟨buffer, ⟨rest, pos⟩, state⟩ := stream
  obtain ⟨htext, hpos, hstate⟩ := h
  obtain ⟨rfl, rfl⟩ := List.append_eq_nil_iff.mp htext
  cases state with
  | ok => exact ⟨rfl, rfl, hpos, Or.inr ⟨rfl, rfl⟩⟩
  | eof => exact ⟨rfl, rfl, hpos, Or.inr ⟨rfl, rfl⟩⟩
  | error => simp at hstate

end Stream

/-! ### Reading UTF-8 -/

/-- A buffer that holds ASCII holds nothing else. -/
def Settled (buffer : Text) : Prop := ∀ b ∈ buffer, b < 0x80 → buffer = [b]

theorem settled_nil : Settled [] := by simp [Settled]

theorem Settled.tail {c : Byte} {buffer : Text} (h : Settled (c :: buffer)) : Settled buffer := by
  intro b hb hascii
  obtain ⟨-, rfl⟩ := List.cons.inj (h b (List.mem_cons_of_mem c hb) hascii)
  cases hb

theorem Settled.eq_nil {c : Byte} {buffer : Text} (h : Settled (c :: buffer)) (hascii : c < 0x80) :
    buffer = [] := (List.cons.inj (h c List.mem_cons_self hascii)).2

theorem settled_encodeChar (c : Char) : Settled (String.utf8EncodeChar c) := by
  intro b hb hascii
  have hencode := utf8Encode_toNat c
  have hle := toNat_le c
  simp only [UInt8.lt_iff_toNat_lt, UInt8.reduceToNat] at hascii
  rw [utf8Encode] at hencode
  split_ifs at hencode with hone
  · rw [← Option.some.inj hencode] at hb ⊢
    rw [List.mem_singleton.mp hb]
  all_goals
    rw [← Option.some.inj hencode] at hb
    simp only [List.mem_cons, List.not_mem_nil, or_false] at hb
    obtain ⟨n, rfl, hlow, hhigh⟩ : ∃ n : Nat, b = n.toUInt8 ∧ 0x80 ≤ n ∧ n < 256 := by
      grind
    rw [toNat_toUInt8 hhigh] at hascii
    omega

/-- A sequence taken from the data is the UTF-8 of a character. -/
theorem exists_encodeChar {c : Byte} {more : Text} (hfirst : 0x80 ≤ c)
    (hlength : more.length = utf8CheckFirst c - 1) (hcount : utf8CheckFirst c ≠ 0)
    (hcheck : utf8CheckFull (c :: more) (utf8CheckFirst c) = true) :
    ∃ char : Char, c :: more = String.utf8EncodeChar char := by
  have htwo : 2 ≤ utf8CheckFirst c := by
    rw [utf8CheckFirst_eq] at hcount ⊢
    simp only [UInt8.le_iff_toNat_le, UInt8.reduceToNat] at hfirst
    split_ifs at hcount ⊢ <;> omega
  rw [utf8CheckFull_eq, Option.isSome_iff_exists] at hcheck
  obtain ⟨value, hvalue⟩ := hcheck
  have hiterate : utf8Iterate c more = some (value, []) :=
    (iterate_more rfl htwo).mpr ⟨by omega, hvalue, List.drop_eq_nil_of_le (by omega)⟩
  obtain ⟨char, -, hbytes⟩ := utf8Iterate_eq_some_iff.mp hiterate
  exact ⟨char, by rw [hbytes, List.append_nil]⟩

theorem exists_encodeChar_ascii {c : Byte} (h : c < 0x80) :
    ∃ char : Char, [c] = String.utf8EncodeChar char := by
  have hiterate : utf8Iterate c [] = some (c.toNat, []) :=
    iterate_one (by simpa [UInt8.lt_iff_toNat_lt] using h)
  obtain ⟨char, -, hbytes⟩ := utf8Iterate_eq_some_iff.mp hiterate
  exact ⟨char, by rw [hbytes, List.append_nil]⟩

/-- A byte comes out of the buffer, or with the rest of its character out of the data. -/
theorem Stream.get_byte {stream : Stream} {c : Byte} (h : stream.get.1 = .byte c) :
    stream.get.2.state = .ok ∧ (stream.buffer = c :: stream.get.2.buffer
      ∨ stream.buffer = [] ∧
        ∃ char : Char, c :: stream.get.2.buffer = String.utf8EncodeChar char) := by
  obtain ⟨buffer, data, state⟩ := stream
  cases state with
  | eof => cases h
  | error => cases h
  | ok =>
      cases buffer with
      | cons b buffer =>
          cases h
          exact ⟨rfl, Or.inl rfl⟩
      | nil =>
          simp only [Stream.get] at h ⊢
          cases hread : (stringGet data).1 with
          | eof =>
              rw [hread] at h
              cases h
          | error =>
              rw [hread] at h
              cases h
          | byte b =>
              simp only [hread] at h ⊢
              split at h
              · split at h
                · cases h
                · split at h
                  · cases h
                    rw [if_pos ‹_›, if_neg ‹_›, if_pos ‹_›]
                    exact ⟨rfl, Or.inr ⟨trivial, exists_encodeChar ‹_›
                      (length_fillBuffer _ _).1 ‹_› ‹_›⟩⟩
                  · cases h
              · cases h
                rw [if_neg ‹_›]
                exact ⟨rfl, Or.inr ⟨trivial, exists_encodeChar_ascii (UInt8.not_le.mp ‹_›)⟩⟩

theorem Stream.settled_get {stream : Stream} {c : Byte} (hsettled : Settled stream.buffer)
    (h : stream.get.1 = .byte c) : Settled (c :: stream.get.2.buffer) := by
  obtain ⟨-, hbuffer | ⟨-, char, hchar⟩⟩ := Stream.get_byte h
  · exact hbuffer ▸ hsettled
  · exact hchar ▸ settled_encodeChar char

/-- The bytes are read one after the other, with nothing put back in between. -/
inductive Stream.Reads : Stream → Text → Stream → Prop
  | nil (stream : Stream) : Reads stream [] stream
  | cons {stream last : Stream} {c : Byte} {bytes : Text} (hget : stream.get.1 = .byte c)
      (rest : Reads stream.get.2 bytes last) : Reads stream (c :: bytes) last

namespace Stream.Reads

variable {stream last : Stream} {bytes : Text}

theorem append {more : Text} {next : Stream} (h : Reads stream bytes next)
    (hmore : Reads next more last) : Reads stream (bytes ++ more) last := by
  induction h with
  | nil => exact hmore
  | cons hget rest ih => exact .cons hget (ih hmore)

theorem settled (h : Reads stream bytes last) (hsettled : Settled stream.buffer) :
    Settled last.buffer := by
  induction h with
  | nil => exact hsettled
  | cons hget rest ih => exact ih (Stream.settled_get hsettled hget).tail

/-- Up to what was in the buffer before and what is in it behind, it is the UTF-8 of
characters that is read. The induction is on the bytes; `Settled` carries that a sequence
is never left halfway by an ASCII byte. -/
theorem utf8 (h : Reads stream bytes last) :
    ∃ chars, bytes ++ last.buffer = stream.buffer ++ encode chars := by
  induction h with
  | nil => exact ⟨[], by simp⟩
  | cons hget rest ih =>
      obtain ⟨chars, hchars⟩ := ih
      obtain ⟨-, hbuffer | ⟨hbuffer, char, hchar⟩⟩ := Stream.get_byte hget
      · exact ⟨chars, by rw [List.cons_append, hchars, hbuffer, List.cons_append]⟩
      · refine ⟨char :: chars, ?_⟩
        rw [List.cons_append, hchars, hbuffer, encode_cons, ← hchar]
        rfl

end Stream.Reads

end LibJansson

end IoTRepublic
