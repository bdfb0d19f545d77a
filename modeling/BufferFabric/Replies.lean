import BufferFabric.Messages
import BufferFabric.Remote
import Mathlib.Data.Nat.Digits.Defs

/-!
# Replies can be read

The text and the payload of a reply pass through a response, a message and a frame. In every branch
of `dispatch` what they add fits into what the longest report leaves free, so that a client reads
back the response that was passed.
-/

namespace BufferFabric

open Outcome Protocol

/-! ### The length of a text -/

theorem length_byteArray_toList (bytes : ByteArray) : bytes.toList.length = bytes.size := by
  have hloop : ∀ (i : ℕ) (r : List UInt8),
      (ByteArray.toList.loop bytes i r).length = r.length + (bytes.size - i) := by
    intro i r
    fun_induction ByteArray.toList.loop bytes i r with
    | case1 i r h ih =>
        rw [ih, List.length_cons]
        omega
    | case2 i r h =>
        rw [List.length_reverse]
        omega
  exact (hloop 0 []).trans (Nat.zero_add _)

/-- A character takes at most four bytes. -/
theorem length_textBytes_le (text : String) : (textBytes text).length ≤ 4 * text.length := by
  have hchars : ∀ chars : List Char,
      (chars.flatMap String.utf8EncodeChar).length ≤ 4 * chars.length := by
    intro chars
    induction chars with
    | nil => exact Nat.le_refl _
    | cons c chars ih =>
        have hc := c.utf8Size_le_four
        rw [List.flatMap_cons, List.length_append, String.length_utf8EncodeChar, List.length_cons]
        omega
  unfold textBytes
  rw [length_byteArray_toList, String.toUTF8_eq_toByteArray, ← String.utf8Encode_toList]
  rw [List.utf8Encode, List.size_toByteArray]
  exact (hchars text.toList).trans (Nat.le_of_eq (by rw [String.length_toList]))

theorem length_toString_le {n : ℕ} (h : n < 18446744073709551616) : (toString n).length ≤ 20 :=
  Nat.repr_length n 20 (by decide) (by omega)

/-! ### The branches of `dispatch` -/

/-- The reply is that of the response that was passed, in an operation that has a code and under
the id of the request, and the response leaves room for the layers around it. -/
structure Handled.Fits (h : Handled) (request : RequestId) : Prop where
  op : MessageOp.ofU8 h.reply.op.toU8 = h.reply.op
  request : h.reply.request = request
  body : h.reply.body = encodeResponse h.passed.status h.passed.message h.passed.payload
  text : h.passed.message.length ≤ kMaxStatusMessageBytes
  size : h.passed.message.length + h.passed.payload.length + 29 ≤ kMaxFrameBytes

theorem Status.length_text (e : Status) : e.text.length ≤ kMaxStatusMessageBytes :=
  List.length_take_le ..

theorem length_literal {text : String} (h : text.length ≤ 128) :
    (textBytes text).length ≤ kMaxStatusMessageBytes :=
  (length_textBytes_le text).trans (Nat.mul_le_mul_left 4 h)

namespace Coordinator

variable {c : Coordinator} {reply : Message}

/-- A response with a payload that is not a report. -/
theorem respondWith_fits (hop : MessageOp.ofU8 reply.op.toU8 = reply.op) {code : ErrorCode}
    {text payload : Bytes} (htext : text.length ≤ kMaxStatusMessageBytes)
    (hpayload : payload.length ≤ 1024) :
    (c.respondWith reply code text payload).Fits reply.request := by
  refine ⟨hop, rfl, rfl, htext, ?_⟩
  have hbound : kMaxStatusMessageBytes + 1024 + 29 ≤ kMaxFrameBytes := by decide
  change text.length + payload.length + 29 ≤ kMaxFrameBytes
  omega

theorem refuse_fits (hop : MessageOp.ofU8 reply.op.toU8 = reply.op) {code : ErrorCode}
    {text : String} (htext : text.length ≤ 128) (closeAfter : Bool) :
    (c.refuse reply code text closeAfter).Fits reply.request := by
  obtain ⟨h₁, h₂, h₃, h₄, h₅⟩ :=
    @respondWith_fits c reply hop code _ [] (length_literal htext) (Nat.zero_le _)
  exact ⟨h₁, h₂, h₃, h₄, h₅⟩

theorem answer_fits {α : Type} (hop : MessageOp.ofU8 reply.op.toU8 = reply.op)
    (outcome : Except Status α × Coordinator) (summary : α → DecisionSummary) {text : String}
    (htext : text.length ≤ 128) : (answer outcome summary reply text).Fits reply.request := by
  unfold answer
  split
  · rename_i e _
    exact respondWith_fits hop e.length_text (Nat.zero_le _)
  · refine respondWith_fits hop (length_literal htext) ?_
    rw [encodeDecisionSummary_length]
    decide

/-- A report is cut so that it fits. -/
theorem serveText_fits (hop : MessageOp.ofU8 reply.op.toU8 = reply.op) (text : Bytes) :
    (c.serveText reply text).Fits reply.request := by
  have hcut : (text.take (kMaxFrameBytes - 64)).length ≤ kMaxFrameBytes - 64 :=
    List.length_take_le ..
  have hok : (textBytes "ok").length ≤ 8 := length_textBytes_le "ok"
  have hbytes : kMaxFrameBytes = 1048576 := rfl
  have hstatus : kMaxStatusMessageBytes = 512 := rfl
  refine ⟨hop, rfl, rfl, ?_, ?_⟩
  · change (textBytes "ok").length ≤ kMaxStatusMessageBytes
    omega
  · change (textBytes "ok").length + (putU32 _ ++ text.take (kMaxFrameBytes - 64)).length + 29 ≤ _
    rw [List.length_append, length_putU32]
    omega

theorem handleHello_fits (hop : MessageOp.ofU8 reply.op.toU8 = reply.op) (body : Bytes) :
    (c.handleHello reply body).Fits reply.request := by
  unfold handleHello
  split
  · exact refuse_fits hop (by decide) true
  rename_i hello _
  split
  · refine refuse_fits hop ?_ true
    have hversion := length_toString_le (n := hello.protocolVersion.toNat)
      (Nat.lt_trans hello.protocolVersion.toNat_lt (by decide))
    have hleft : "wire protocol version ".length = 22 := rfl
    have hright : " is not supported".length = 17 := rfl
    simp only [String.length_append]
    omega
  split
  · refine refuse_fits hop ?_ true
    have hclaimed := length_toString_le hello.claimedEpoch.raw.toNat_lt
    have hcurrent := length_toString_le c.fabric.epoch.raw.toNat_lt
    have hleft : "claimed epoch ".length = 14 := rfl
    have hmiddle : " is not the current epoch ".length = 26 := rfl
    simp only [String.length_append]
    omega
  · refine @respondWith_fits c { reply with op := .helloAck } rfl .ok _ _
      (length_literal (by decide)) ?_
    simp only [encodeHelloResponse, List.length_append, length_putU32, length_putU64, length_putId]
    decide

theorem handlePressure_fits (hop : MessageOp.ofU8 reply.op.toU8 = reply.op) (m : Moment)
    (body : Bytes) : (c.handlePressure m reply body).Fits reply.request := by
  unfold handlePressure
  split
  · exact refuse_fits hop (by decide) false
  dsimp only
  split
  · rename_i e _
    exact respondWith_fits hop e.length_text (Nat.zero_le _)
  unfold observe
  dsimp only
  split
  · rename_i e _
    exact respondWith_fits hop e.length_text (Nat.zero_le _)
  · exact respondWith_fits hop (length_literal (by decide)) (Nat.zero_le _)

theorem handleExplain_fits (hop : MessageOp.ofU8 reply.op.toU8 = reply.op) (reports : Reports)
    (body : Bytes) : (c.handleExplain reports reply body).Fits reply.request := by
  unfold handleExplain
  split
  · exact refuse_fits hop (by decide) false
  split
  · rename_i e _
    exact respondWith_fits hop e.length_text (Nat.zero_le _)
  · exact serveText_fits hop _

theorem handleFenced_fits (hop : MessageOp.ofU8 reply.op.toU8 = reply.op) (reports : Reports)
    (m : Moment) (request : Message) :
    (c.handleFenced reports m reply request).Fits reply.request := by
  unfold handleFenced
  split
  · unfold handleAllocate
    split
    · exact refuse_fits hop (by decide) false
    · exact answer_fits hop _ _ (by decide)
  · unfold handleRelease
    split
    · exact refuse_fits hop (by decide) false
    · exact answer_fits hop _ _ (by decide)
  · unfold handleEvaluate
    split
    · exact refuse_fits hop (by decide) false
    · exact answer_fits hop _ _ (by decide)
  · exact handlePressure_fits hop m request.body
  · exact handleExplain_fits hop reports request.body
  · exact serveText_fits hop _
  · exact serveText_fits hop _
  · exact serveText_fits hop _
  · have htext : "shutdown requested".length ≤ 128 := by decide
    obtain ⟨h₁, h₂, h₃, h₄, h₅⟩ := @respondWith_fits
      { c.countServed with shutdownRequested := true } reply hop .ok _ []
      (length_literal htext) (Nat.zero_le _)
    exact ⟨h₁, h₂, h₃, h₄, h₅⟩
  · exact refuse_fits hop (by decide) false

theorem dispatch_fits (c : Coordinator) (reports : Reports) (m : Moment) {request : Message}
    (hop : MessageOp.ofU8 request.op.toU8 = request.op) :
    (c.dispatch reports m request).Fits request.request := by
  unfold dispatch
  dsimp only
  split
  · refine handleHello_fits ?_ request.body
    exact hop
  · refine respondWith_fits ?_ ?_ (Nat.zero_le _)
    · exact hop
    · exact length_literal (by decide)
  · split
    · refine refuse_fits ?_ ?_ true
      · exact hop
      · decide
    · refine handleFenced_fits ?_ reports m request
      exact hop

end Coordinator

/-! ### What the client reads -/

theorem length_encodeResponse (status : ErrorCode) {message payload : Bytes}
    (h : message.length ≤ maxTextBytes) :
    (encodeResponse status message payload).length = 8 + message.length + payload.length := by
  have h16 : ∀ v : UInt16, (putU16 v).length = 2 := fun _ ↦ rfl
  simp only [encodeResponse, List.length_append, List.take_of_length_le h, h16, length_putU32]
  omega

/-- Whatever the state of the fabric and the message that was received, the client takes the frame
of the reply within its bound, and reads back a message under the id of the request, whose body is
exactly the response that was passed. -/
theorem reply_readable (reports : Reports) (m : Moment) (c : Coordinator) {data : Bytes}
    {maxBodyBytes : ℕ} {request : Message}
    (hrequest : decodeMessagePayload data maxBodyBytes = .ok request) :
    let handled := c.dispatch reports m request
    let payload := encodeMessagePayload handled.reply
    payload.length ≤ kMaxFrameBytes ∧
      (∀ pieces bytes, Pieces.delivered pieces = encodeMessage handled.reply ++ bytes →
        ∃ rest, receiveFrame kMaxFrameBytes pieces = .ok (payload, rest) ∧
          Pieces.delivered rest = bytes) ∧
      decodeMessagePayload payload kMaxFrameBytes = .ok handled.reply ∧
      handled.reply.request = request.request ∧
      handled.reply.body = encodeResponse handled.passed.status handled.passed.message
        handled.passed.payload ∧
      decodeResponse handled.reply.body = some (handled.passed, []) := by
  dsimp only
  have hfits := c.dispatch_fits reports m (decodeMessagePayload_ok hrequest).2.1
  generalize c.dispatch reports m request = handled at hfits
  have htext : handled.passed.message.length ≤ maxTextBytes :=
    hfits.text.trans (by decide)
  have hbody : handled.reply.body.length =
      8 + handled.passed.message.length + handled.passed.payload.length := by
    rw [hfits.body, length_encodeResponse _ htext]
  have hlength := length_encodeMessagePayload handled.reply
  have hsize := hfits.size
  have hbytes : kMaxFrameBytes = 1048576 := rfl
  have hframe : (encodeMessagePayload handled.reply).length ≤ kMaxFrameBytes := by omega
  refine ⟨hframe, ?_, ?_, hfits.request, hfits.body, ?_⟩
  · intro pieces bytes hpieces
    exact receiveFrame_frame hpieces ⟨hframe, by omega⟩
  · exact decodeMessagePayload_encode _ hfits.op (by omega) (by omega)
  · have hpayload : handled.passed.payload.length ≤ kMaxFrameBytes := by omega
    have hread := decodeResponse_encode handled.passed.status handled.passed.message hpayload []
    rw [List.append_nil, ← hfits.body, List.take_of_length_le htext] at hread
    exact hread

def summaryRequest : Message := { op := .summary, request := ⟨7⟩, epoch := ⟨1⟩ }

/-- A report of two million bytes, more than any frame carries. -/
def longReports : Reports :=
  { (default : Reports) with summary := fun _ ↦ List.replicate 2000000 46 }

theorem reply_readable_long :
    let handled := namedCoordinator.dispatch longReports {} summaryRequest
    (encodeMessagePayload handled.reply).length ≤ kMaxFrameBytes ∧
      handled.reply.request = ⟨7⟩ ∧
      decodeResponse handled.reply.body = some (handled.passed, []) := by
  have hrequest : decodeMessagePayload (encodeMessagePayload summaryRequest) 1024 =
      .ok summaryRequest := by decide +kernel
  have h := reply_readable longReports {} namedCoordinator hrequest
  exact ⟨h.1, h.2.2.2.1, h.2.2.2.2.2⟩

end BufferFabric
