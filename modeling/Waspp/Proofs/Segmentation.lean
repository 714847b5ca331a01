/-
Module: Waspp.Proofs.Segmentation
Layer: Proofs
Purpose: What a connection does with the same byte stream under different segmentations.  The reference is
  the connection whose reads bring one byte each, which drops nothing.  A connection over arbitrary reads
  does the same as the reference, and drops nothing, exactly when no message ends strictly inside a read
  (`segmentation_iff`); two pipelined requests in one read show that the condition matters.
Imports: Waspp.Model.Connection
Trusted boundary: none (fully proved)
Main exports: EndsMessage, Aligned, connection_run_eq_byteConnection_run, segmentation_iff
Open obligations: none
-/
import Waspp.Model.Connection

namespace Waspp

open CString Incremental

/-! ### The parser always reads -/

/-- The parser is not in the one state that its switch has no case for. -/
def HasCase (p : Parsing) : Prop := p.state_ ≠ .paramValueStart

/-- In these states every byte is read. -/
theorem HasCase.act_ne_refuse {p : Parsing} (cased : HasCase p) (b : UInt8) :
    parser.act p b ≠ .refuse := by
  obtain ⟨state_, req⟩ := p
  cases state_ <;> simp only [parser, switchBody] <;> grind [HasCase]

/-- And they lead to such states. -/
theorem HasCase.act {p q : Parsing} {b : UInt8} {verdict : Tribool} (cased : HasCase p)
    (act : parser.act p b = .read verdict q) : HasCase q := by
  refine of_act (P := fun _ q => HasCase q) act ?_
  obtain ⟨state_, req⟩ := p
  cases state_ <;> simp [switchBody, HasCase]

theorem HasCase.reads {p q : Parsing} {u : Bytes} (cased : HasCase p) (reads : parser.Reads p u q) :
    HasCase q :=
  reads.invariant cased fun _ _ _ _ cased act => cased.act act

section

variable {σ : Type} (endpoint : Endpoint) (handleRequest : Handler σ)

/-! ### One byte at a time

The reference delivers each byte with a read of its own, so nothing is behind the byte that ends a
message. -/

/-- A byte on which the parser asks for more. -/
theorem completeRead_byte_of_indeterminate {s : Serving σ} (reading : s.phase = .reading) {b : UInt8}
    {q : Parsing} (act : parser.act s.parsing b = .read .indeterminate q) :
    completeRead endpoint handleRequest s [b] = (s.withParsing q, []) := by
  have run : parse s.parsing [b] = ⟨.indeterminate, q, 1⟩ := by
    rw [parse_eq_run, Machine.run_cons_indeterminate act]
    rfl
  simp [completeRead, reading, doRead, run, answer]

/-- A byte that settles the parser's verdict. -/
theorem completeRead_byte_of_definite {s : Serving σ} (reading : s.phase = .reading) {b : UInt8}
    {q : Parsing} {verdict : Tribool} (definite : verdict ≠ .indeterminate)
    (act : parser.act s.parsing b = .read verdict q) :
    completeRead endpoint handleRequest s [b] =
      answer endpoint handleRequest (s.withParsing q) verdict := by
  have run : parse s.parsing [b] = ⟨verdict, q, 1⟩ := by
    rw [parse_eq_run]
    cases verdict with
    | yes => exact Machine.run_cons_yes act []
    | no => exact Machine.run_cons_no act []
    | indeterminate => exact absurd rfl definite
  simp [completeRead, reading, doRead, run]

/-- Bytes on which the parser asks for more move the parser only. -/
theorem byteConnection_run_of_reads {s : Serving σ} (reading : s.phase = .reading) {u : Bytes}
    {q : Parsing} (reads : parser.Reads s.parsing u q) :
    (byteConnection endpoint handleRequest).run s u = (s.withParsing q, []) := by
  induction u generalizing s with
  | nil =>
      obtain ⟨-, rfl, -⟩ := Outcome.mk.inj reads
      rfl
  | cons b u ih =>
      obtain ⟨t, act, tail⟩ := reads.cons_inv
      have here : (byteConnection endpoint handleRequest).step s b = (s.withParsing t, []) :=
        completeRead_byte_of_indeterminate endpoint handleRequest reading act
      have later := ih (s := s.withParsing t) reading tail
      rw [Transducer.run_cons, here, Transducer.final, Transducer.outputs, later]
      rfl

/-- A connection that is not reading ignores what arrives. -/
theorem completeRead_of_stopped {s : Serving σ} (stopped : s.phase ≠ .reading) (data : Bytes) :
    completeRead endpoint handleRequest s data = (s, []) := by
  cases phase : s.phase with
  | reading => exact absurd phase stopped
  | closed => simp [completeRead, phase]
  | terminated => simp [completeRead, phase]

/-- A connection that has stopped does nothing more. -/
theorem byteConnection_run_of_stopped {s : Serving σ} (stopped : s.phase ≠ .reading) (w : Bytes) :
    (byteConnection endpoint handleRequest).final s w = s ∧
      (byteConnection endpoint handleRequest).outputs s w = [] := by
  have run := Transducer.run_of_stuck (byteConnection endpoint handleRequest)
    (fun b => completeRead_of_stopped endpoint handleRequest stopped [b]) w
  exact ⟨congrArg Prod.fst run, congrArg Prod.snd run⟩

/-- A connection reads on only from a state in which it was reading. -/
theorem reading_of_byteConnection_final {s : Serving σ} {w : Bytes}
    (reading : ((byteConnection endpoint handleRequest).final s w).phase = .reading) :
    s.phase = .reading := by
  by_contra stopped
  rw [(byteConnection_run_of_stopped endpoint handleRequest stopped w).1] at reading
  exact stopped reading

/-! ### Message ends -/

/-- The last byte of `w` ends a message, and the connection reads on after the response. -/
def EndsMessage (s : Serving σ) (w : Bytes) : Prop :=
  ∃ u b, w = u ++ [b] ∧
    ((byteConnection endpoint handleRequest).step
      ((byteConnection endpoint handleRequest).final s u) b).2 ≠ [] ∧
    ((byteConnection endpoint handleRequest).final s w).phase = .reading

/-- No message of the stream ends strictly inside a read. -/
def Aligned (s : Serving σ) (reads : List Bytes) : Prop :=
  ∀ before data after u v, reads = before ++ data :: after → data = u ++ v → u ≠ [] → v ≠ [] →
    ¬ EndsMessage endpoint handleRequest s (before.flatten ++ u)

/-- No message ends strictly inside the next read. -/
def Clean (s : Serving σ) (data : Bytes) : Prop :=
  ∀ u v, data = u ++ v → u ≠ [] → v ≠ [] → ¬ EndsMessage endpoint handleRequest s u

/-- A message ends in a text behind others where it ends in that text. -/
theorem endsMessage_append_iff {s : Serving σ} {before u : Bytes} (nonempty : u ≠ []) :
    EndsMessage endpoint handleRequest s (before ++ u) ↔
      EndsMessage endpoint handleRequest ((byteConnection endpoint handleRequest).final s before) u := by
  constructor
  · rintro ⟨w, b, split, writes, reading⟩
    obtain ⟨u', rfl⟩ : ∃ u', u = u' ++ [b] := by
      refine ⟨u.dropLast, ?_⟩
      have last : u.getLast nonempty = b := by
        have := congrArg List.getLast? split
        rw [List.getLast?_append_of_ne_nil _ nonempty, List.getLast?_concat,
          List.getLast?_eq_getLast_of_ne_nil nonempty] at this
        exact Option.some.inj this
      rw [← last, List.dropLast_append_getLast]
    have same : w = before ++ u' := by
      rw [← List.append_assoc] at split
      exact (List.append_inj_left' split rfl).symm
    subst same
    refine ⟨u', b, rfl, ?_, ?_⟩
    · rwa [Transducer.final_append] at writes
    · rwa [Transducer.final_append] at reading
  · rintro ⟨u', b, rfl, writes, reading⟩
    refine ⟨before ++ u', b, by rw [List.append_assoc], ?_, ?_⟩
    · rwa [Transducer.final_append]
    · rwa [Transducer.final_append]

/-- Reads are aligned when the first is and the others are behind it. -/
theorem aligned_cons_iff {s : Serving σ} {data : Bytes} {reads : List Bytes} :
    Aligned endpoint handleRequest s (data :: reads) ↔
      Clean endpoint handleRequest s data ∧
        Aligned endpoint handleRequest ((byteConnection endpoint handleRequest).final s data) reads := by
  constructor
  · intro aligned
    refine ⟨fun u v split left right => aligned [] data reads u v rfl split left right, ?_⟩
    intro before data' after u v split inner left right
    have := aligned (data :: before) data' after u v (by rw [split, List.cons_append]) inner left right
    rwa [List.flatten_cons, List.append_assoc,
      endsMessage_append_iff endpoint handleRequest (by simp [left])] at this
  · rintro ⟨clean, aligned⟩ before data' after u v split inner left right
    cases before with
    | nil =>
        obtain ⟨rfl, rfl⟩ := List.cons.inj split
        exact clean u v inner left right
    | cons first before =>
        obtain ⟨rfl, rfl⟩ := List.cons.inj split
        rw [List.flatten_cons, List.append_assoc,
          endsMessage_append_iff endpoint handleRequest (by simp [left])]
        exact aligned before data' after u v rfl inner left right

/-! ### One read against its bytes -/

/-- An answer has an output. -/
theorem answer_ne_nil (s : Serving σ) {verdict : Tribool} (definite : verdict ≠ .indeterminate) :
    (answer endpoint handleRequest s verdict).2 ≠ [] := by
  cases verdict with
  | yes =>
      cases outcome : prepare endpoint s.conn.request with
      | error fault => simp [answer, outcome]
      | ok request =>
          rcases ran : handleRequest s.world request s.conn.response with ⟨result, world, request', response⟩
          cases result <;> simp [answer, outcome, ran]
  | no => simp [answer]
  | indeterminate => exact absurd rfl definite

/-- A read either leaves the parser asking for more, or it contains the byte that settles a message, and the
    bytes behind that one are dropped. -/
theorem completeRead_cases {s : Serving σ} (reading : s.phase = .reading) (cased : HasCase s.parsing)
    (data : Bytes) :
    (completeRead endpoint handleRequest s data = (byteConnection endpoint handleRequest).run s data ∧
        (byteConnection endpoint handleRequest).outputs s data = []) ∨
      ∃ u b rest reply, data = u ++ b :: rest ∧
        (byteConnection endpoint handleRequest).outputs s u = [] ∧
        (byteConnection endpoint handleRequest).step
          ((byteConnection endpoint handleRequest).final s u) b = reply ∧ reply.2 ≠ [] ∧
        completeRead endpoint handleRequest s data =
          (reply.1, reply.2 ++ if reply.1.phase = .reading ∧ rest ≠ [] then [.ignored rest] else []) := by
  by_cases pending : (parser.run s.parsing data).verdict = .indeterminate
  · have reads := Machine.reads_of_indeterminate pending
    have consumed := Machine.run_consumed_of_indeterminate pending
    have moved : completeRead endpoint handleRequest s data =
        (s.withParsing (parser.run s.parsing data).state, []) := by
      simp [completeRead, reading, doRead, parse_eq_run, pending, consumed, answer]
    have bytewise := byteConnection_run_of_reads endpoint handleRequest reading reads
    exact Or.inl ⟨moved.trans bytewise.symm, congrArg Prod.snd bytewise⟩
  · obtain ⟨u, b, rest, q, split, reads, ⟨act, consumed⟩ | ⟨refuse, -⟩⟩ :=
      Machine.run_definite_cases pending
    · have before := byteConnection_run_of_reads endpoint handleRequest reading reads
      have position : (byteConnection endpoint handleRequest).final s u = s.withParsing q :=
        congrArg Prod.fst before
      have last : (byteConnection endpoint handleRequest).step (s.withParsing q) b =
          answer endpoint handleRequest (s.withParsing (parser.run s.parsing data).state)
            (parser.run s.parsing data).verdict :=
        completeRead_byte_of_definite endpoint handleRequest (s := s.withParsing q) reading pending act
      have unread : data.drop (u.length + 1) = rest := by simp [split, List.drop_append]
      refine Or.inr ⟨u, b, rest, _, split, congrArg Prod.snd before, by rw [position, last],
        answer_ne_nil endpoint handleRequest _ pending, ?_⟩
      simp [completeRead, reading, doRead, parse_eq_run, consumed, unread]
    · exact absurd refuse ((cased.reads reads).act_ne_refuse b)

/-- A connection that reads on after a response starts over. -/
theorem answer_reading {s : Serving σ} {verdict : Tribool} (definite : verdict ≠ .indeterminate)
    (reading : (answer endpoint handleRequest s verdict).1.phase = .reading) :
    (answer endpoint handleRequest s verdict).1.parsing = .start {} := by
  have write (s' : Serving σ) (on : (doWrite s').phase = .reading) :
      (doWrite s').parsing = .start {} := by
    unfold doWrite at on ⊢
    split at on
    · simp at on
    · rename_i stays
      simp [stays, Serving.parsing, Parsing.start]
  cases verdict with
  | yes =>
      cases outcome : prepare endpoint s.conn.request with
      | error fault => simp [answer, outcome] at reading
      | ok request =>
          rcases ran : handleRequest s.world request s.conn.response with ⟨result, world, request', response⟩
          cases result with
          | error fault => simp [answer, outcome, ran] at reading
          | ok done =>
              simp only [answer, outcome, ran] at reading ⊢
              exact write _ reading
  | no => exact write _ reading
  | indeterminate => exact absurd rfl definite

/-- The parser has a case for its state between any two reads. -/
theorem completeRead_hasCase {s : Serving σ} (reading : s.phase = .reading) (cased : HasCase s.parsing)
    {data : Bytes} (on : (completeRead endpoint handleRequest s data).1.phase = .reading) :
    HasCase (completeRead endpoint handleRequest s data).1.parsing := by
  by_cases pending : (parser.run s.parsing data).verdict = .indeterminate
  · have moved : (completeRead endpoint handleRequest s data).1 =
        s.withParsing (parser.run s.parsing data).state := by
      simp [completeRead, reading, doRead, parse_eq_run, pending, answer]
    rw [moved]
    exact cased.reads (Machine.reads_of_indeterminate pending)
  · have answered : (completeRead endpoint handleRequest s data).1 =
        (answer endpoint handleRequest (s.withParsing (parser.run s.parsing data).state)
          (parser.run s.parsing data).verdict).1 := by
      simp [completeRead, reading, doRead, parse_eq_run]
    rw [answered] at on ⊢
    rw [answer_reading endpoint handleRequest pending on]
    simp [HasCase, Parsing.start]

/-- A read that no message ends strictly inside is its bytes one by one. -/
theorem completeRead_of_clean {s : Serving σ} (reading : s.phase = .reading) (cased : HasCase s.parsing)
    {data : Bytes} (clean : Clean endpoint handleRequest s data) :
    completeRead endpoint handleRequest s data = (byteConnection endpoint handleRequest).run s data := by
  rcases completeRead_cases endpoint handleRequest reading cased data with
    ⟨same, -⟩ | ⟨u, b, rest, reply, rfl, silent, last, replies, read⟩
  · exact same
  · rw [read, Transducer.run_append, silent, Transducer.final_cons, Transducer.outputs_cons, last]
    by_cases tail : rest = []
    · subst tail
      simp
    · have stopped : reply.1.phase ≠ .reading := by
        intro on
        refine clean (u ++ [b]) rest (by simp) (by simp) tail ⟨u, b, rfl, by rwa [last], ?_⟩
        rwa [Transducer.final_append, Transducer.final_cons, last]
      obtain ⟨stays, nothing⟩ := byteConnection_run_of_stopped endpoint handleRequest stopped rest
      simp [stays, nothing, stopped]

/-- A read that a message ends strictly inside drops bytes. -/
theorem lost_of_not_clean {s : Serving σ} (reading : s.phase = .reading) (cased : HasCase s.parsing)
    {data : Bytes} (unclean : ¬ Clean endpoint handleRequest s data) :
    lost (completeRead endpoint handleRequest s data).2 ≠ [] := by
  simp only [Clean, not_forall, not_not] at unclean
  obtain ⟨u, v, split, -, tail, u', b', rfl, writes, on⟩ := unclean
  -- the byte that ends the message writes something
  have speaks {w : Bytes} (silent : (byteConnection endpoint handleRequest).outputs s (u' ++ b' :: w) = []) :
      False := by
    rw [Transducer.outputs_append, Transducer.outputs_cons] at silent
    simp only [List.append_eq_nil_iff] at silent
    exact writes silent.2.1
  rcases completeRead_cases endpoint handleRequest reading cased data with
    ⟨-, silent⟩ | ⟨u, b, rest, reply, split', silent, last, replies, read⟩
  · rw [split, List.append_assoc] at silent
    exact absurd silent speaks
  · -- the first message of the read ends at or before the given one
    obtain ⟨w, here, there⟩ : ∃ w, u' ++ [b'] = u ++ [b] ++ w ∧ rest = w ++ v := by
      have same : u ++ [b] ++ rest = u' ++ [b'] ++ v := by rw [← split, split']; simp
      rcases List.append_eq_append_iff.mp same with ⟨w, left, right⟩ | ⟨w, left, right⟩
      · exact ⟨w, left, right⟩
      · rcases List.eq_nil_or_concat w with rfl | ⟨w', c, rfl⟩
        · exact ⟨[], by simpa using left.symm, by simpa using right.symm⟩
        · have inside : u = u' ++ b' :: w' := by
            rw [List.concat_eq_append, ← List.append_assoc] at left
            simpa using List.append_inj_left' left rfl
          exact absurd (inside ▸ silent) speaks
    have first : reply.1.phase = .reading := by
      rw [here, Transducer.final_append] at on
      have := reading_of_byteConnection_final endpoint handleRequest on
      rwa [Transducer.final_append, Transducer.final_cons, last] at this
    rw [read]
    simp [lost, first, there, tail]

/-! ### Whole runs

One read against its bytes, put together read by read.  A connection that gets ahead of the reference has
lost bytes, and it never catches up. -/

/-- While the connection reads, the parser has a case for its state. -/
def Steady (s : Serving σ) : Prop := s.phase = .reading → HasCase s.parsing

/-- A new connection is in such a state. -/
theorem Serving.Fresh.steady {s : Serving σ} (fresh : s.Fresh) : Steady s := by
  intro _
  simp [HasCase, Serving.parsing, fresh.requestParser]

/-- A read leaves one. -/
theorem completeRead_steady {s : Serving σ} (steady : Steady s) (data : Bytes) :
    Steady (completeRead endpoint handleRequest s data).1 := by
  by_cases reading : s.phase = .reading
  · exact completeRead_hasCase endpoint handleRequest reading (steady reading)
  · rwa [completeRead_of_stopped endpoint handleRequest reading]

theorem byteConnection_steady {s : Serving σ} (steady : Steady s) (w : Bytes) :
    Steady ((byteConnection endpoint handleRequest).final s w) :=
  Transducer.invariant (byteConnection endpoint handleRequest) (P := Steady)
    (fun _ b kept => completeRead_steady endpoint handleRequest kept [b]) steady w

/-- What is lost with outputs in two parts. -/
theorem lost_append (one two : List Output) : lost (one ++ two) = lost one ++ lost two := by
  simp [lost]

/-- An answer to an accepted request loses nothing by itself. -/
theorem lost_answer_yes (s : Serving σ) : lost (answer endpoint handleRequest s .yes).2 = [] := by
  cases outcome : prepare endpoint s.conn.request with
  | error fault => simp [answer, outcome, lost]
  | ok request =>
      rcases ran : handleRequest s.world request s.conn.response with ⟨result, world, request', response⟩
      cases result <;> simp [answer, outcome, ran, lost]

/-- A byte on its own leaves nothing to drop. -/
theorem lost_completeRead_byte {s : Serving σ} (steady : Steady s) (b : UInt8) :
    lost (completeRead endpoint handleRequest s [b]).2 = [] := by
  by_cases reading : s.phase = .reading
  · cases act : parser.act s.parsing b with
    | refuse => exact absurd act ((steady reading).act_ne_refuse b)
    | read verdict q =>
        cases verdict with
        | indeterminate =>
            simp [completeRead_byte_of_indeterminate endpoint handleRequest reading act, lost]
        | no =>
            rw [completeRead_byte_of_definite endpoint handleRequest reading (by simp) act]
            simp [answer, lost]
        | yes =>
            rw [completeRead_byte_of_definite endpoint handleRequest reading (by simp) act]
            exact lost_answer_yes endpoint handleRequest _
  · simp [completeRead_of_stopped endpoint handleRequest reading, lost]

/-- Single bytes lose nothing. -/
theorem lost_byteConnection {s : Serving σ} (steady : Steady s) (w : Bytes) :
    lost ((byteConnection endpoint handleRequest).outputs s w) = [] := by
  induction w generalizing s with
  | nil => rfl
  | cons b w ih =>
      have here : lost ((byteConnection endpoint handleRequest).step s b).2 = [] :=
        lost_completeRead_byte endpoint handleRequest steady b
      rw [Transducer.outputs_cons, lost_append, here]
      exact ih (completeRead_steady endpoint handleRequest steady [b])

/-- A run whose reads no message ends strictly inside is the run over single bytes. -/
theorem connection_run_eq_byteConnection_run {s : Serving σ} (steady : Steady s) {reads : List Bytes}
    (aligned : Aligned endpoint handleRequest s reads) :
    (connection endpoint handleRequest).run s reads =
      (byteConnection endpoint handleRequest).run s reads.flatten := by
  refine Transducer.run_eq_run_flatten _ _ fun before data after split => ?_
  by_cases reading : ((byteConnection endpoint handleRequest).final s before.flatten).phase = .reading
  · have clean : Clean endpoint handleRequest
        ((byteConnection endpoint handleRequest).final s before.flatten) data := by
      intro u v inner left right
      rw [← endsMessage_append_iff endpoint handleRequest left]
      exact aligned before data after u v split inner left right
    exact completeRead_of_clean endpoint handleRequest reading
      (byteConnection_steady endpoint handleRequest steady _ reading) clean
  · obtain ⟨stays, nothing⟩ := byteConnection_run_of_stopped endpoint handleRequest reading data
    exact (completeRead_of_stopped endpoint handleRequest reading data).trans
      (Prod.ext stays.symm nothing.symm)

/-- A run that drops nothing is one whose reads no message ends strictly inside. -/
theorem aligned_of_lost_eq_nil {s : Serving σ} (steady : Steady s) {reads : List Bytes}
    (nothing : lost ((connection endpoint handleRequest).outputs s reads) = []) :
    Aligned endpoint handleRequest s reads := by
  induction reads generalizing s with
  | nil =>
      intro before data after u v split
      simp at split
  | cons data reads ih =>
      rw [Transducer.outputs_cons, lost_append, List.append_eq_nil_iff] at nothing
      by_cases reading : s.phase = .reading
      · have clean : Clean endpoint handleRequest s data := by
          by_contra unclean
          exact lost_of_not_clean endpoint handleRequest reading (steady reading) unclean nothing.1
        have bytewise : ((connection endpoint handleRequest).step s data).1 =
            (byteConnection endpoint handleRequest).final s data :=
          congrArg Prod.fst (completeRead_of_clean endpoint handleRequest reading (steady reading) clean)
        refine (aligned_cons_iff endpoint handleRequest).mpr ⟨clean, ?_⟩
        rw [bytewise] at nothing
        exact ih (byteConnection_steady endpoint handleRequest steady data) nothing.2
      · rintro before data' after u v - - - - ⟨-, -, -, -, on⟩
        exact reading (reading_of_byteConnection_final endpoint handleRequest on)

/-- Two segmentations of one stream give the handler the same requests and the client the same responses, and
    drop nothing, exactly when no message ends strictly inside a read of either. -/
theorem segmentation_iff {s : Serving σ} (fresh : s.Fresh) {one two : List Bytes}
    (same : one.flatten = two.flatten) :
    (handled ((connection endpoint handleRequest).outputs s one) =
          handled ((connection endpoint handleRequest).outputs s two) ∧
        written ((connection endpoint handleRequest).outputs s one) =
          written ((connection endpoint handleRequest).outputs s two) ∧
        lost ((connection endpoint handleRequest).outputs s one) = [] ∧
        lost ((connection endpoint handleRequest).outputs s two) = []) ↔
      Aligned endpoint handleRequest s one ∧ Aligned endpoint handleRequest s two := by
  have bytewise {reads : List Bytes} (aligned : Aligned endpoint handleRequest s reads) :
      (connection endpoint handleRequest).outputs s reads =
        (byteConnection endpoint handleRequest).outputs s reads.flatten :=
    congrArg Prod.snd (connection_run_eq_byteConnection_run endpoint handleRequest fresh.steady aligned)
  constructor
  · rintro ⟨-, -, left, right⟩
    exact ⟨aligned_of_lost_eq_nil endpoint handleRequest fresh.steady left,
      aligned_of_lost_eq_nil endpoint handleRequest fresh.steady right⟩
  · rintro ⟨left, right⟩
    rw [bytewise left, bytewise right, same]
    have nothing := lost_byteConnection endpoint handleRequest fresh.steady two.flatten
    exact ⟨rfl, rfl, nothing, nothing⟩

end

/-! ### Two pipelined requests -/

/-- The address of the requester in the examples. -/
def localEndpoint : Endpoint := ⟨bytes "127.0.0.1", 50000⟩

/-- A handler that answers every request with the stock page of its success. -/
def okHandler : Handler Unit := fun world request _ => (.ok (), world, request, .staticResponse .ok)

/-- A new connection. -/
def newServing : Serving Unit := ⟨(), ⟨.methodStart, {}, {}⟩, .reading⟩

/-- The connection is new. -/
theorem newServing_fresh : newServing.Fresh :=
  ⟨rfl, Request.fresh_default, Response.fresh_default, rfl⟩

/-- A smallest request. -/
def rootRequest : Bytes := bytes "GET / HTTP/1.1\r\n\r\n"

/-- Two requests that arrive in two reads are both handled; in one read the second is dropped. -/
theorem pipelined_request_lost :
    [rootRequest, rootRequest].flatten = [rootRequest ++ rootRequest].flatten ∧
      (∀ data ∈ [rootRequest, rootRequest, rootRequest ++ rootRequest], data ≠ [] ∧ data.length ≤ 8192) ∧
      (handled ((connection localEndpoint okHandler).outputs newServing
        [rootRequest, rootRequest])).length = 2 ∧
      (handled ((connection localEndpoint okHandler).outputs newServing
        [rootRequest ++ rootRequest])).length = 1 ∧
      lost ((connection localEndpoint okHandler).outputs newServing [rootRequest ++ rootRequest]) =
        [rootRequest] := by
  decide

/-- The same two segmentations, of which the second is not aligned. -/
theorem segmentation_iff_pipelined :
    (handled ((connection localEndpoint okHandler).outputs newServing [rootRequest, rootRequest]) =
          handled ((connection localEndpoint okHandler).outputs newServing [rootRequest ++ rootRequest]) ∧
        written ((connection localEndpoint okHandler).outputs newServing [rootRequest, rootRequest]) =
          written ((connection localEndpoint okHandler).outputs newServing [rootRequest ++ rootRequest]) ∧
        lost ((connection localEndpoint okHandler).outputs newServing [rootRequest, rootRequest]) = [] ∧
        lost ((connection localEndpoint okHandler).outputs newServing [rootRequest ++ rootRequest]) = []) ↔
      Aligned localEndpoint okHandler newServing [rootRequest, rootRequest] ∧
        Aligned localEndpoint okHandler newServing [rootRequest ++ rootRequest] :=
  segmentation_iff localEndpoint okHandler newServing_fresh rfl

end Waspp
