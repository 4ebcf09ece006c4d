import CryptoOpal.Lib.Transducer
import CryptoOpal.Zrtp.Engine

/-!
# When Media Is Downgraded

A secure stream encrypts what it sends. A stream in an error state sends it as
it is. So the media is downgraded by whatever moves a secure stream to an
error state, and a GoClear message with the right MAC, which asks for just
that, is only the way that is meant to be.

Four kinds of received message do it without. The engine enters an error state
when a message with a right CRC has a size its type does not allow, when the
stored message before a Commit or a DHPart has a MAC that the value it reveals
does not give, when a GoClear comes to a stream that does not allow it, and
when a relayed SAS is refused. Only the last kind is authenticated.

Every other message leaves a secure stream secure.

## Main definitions

* `Intact`: A message gets past the CRC and the length field.
* `Unsettles`: A received packet moves a secure stream to an error state.
* `Protects`: A stream does not send media as it is.
* `ProtectsThroughout`: It does not at any point of a run.

## Theorems

* `secure_of_settled`, `failed_of_unsettles`: What one call does to the state.
* `media_protected_iff`: A run protects throughout exactly when nothing in it
  unsettles the stream.
-/

namespace CryptoOpal

namespace Zrtp

namespace Engine

open Lib (Octets slice ofBigEndian run final Along)

/-- The packet is a ZRTP message whose CRC and length field are right. -/
def Intact (packet : Octets) : Prop :=
  rtpHdrSize < packet.length ∧ getType packet ≠ .none ∧ getType packet ≠ .unparsed ∧
    Framed (rtpInfo packet 0)

/-- A relayed SAS that is authentic but of no use. -/
def RelayRefused (c : Control) (message : Octets) : Prop :=
  c.peerMitmFlag = true ∧ relayHmacCorrect c message = true ∧
    (slice (relayPlain c message) 4 4 ∉ c.session.profile.sasSchemes ∨
      c.session.matchesPbx = false ∧ slice (relayPlain c message) 8 32 ≠ List.replicate 32 0)

/-- What a message does, past the CRC and the length field, that a secure
    stream answers with an error. -/
def Provokes (sha256 : Hash) (c : Control) (info : RtpInfo) : Prop :=
  sizeCorrect c info = false ∨
    hashCorrect sha256 c info = true ∧ storedHmacCorrect sha256 c info = false ∨
    c.protocol.isSome = true ∧
      (info.type = .goclear ∧ c.allowclear = false ∨
        info.type = .sasrelay ∧ RelayRefused c info.message)

/-- The call moves a secure stream to an error state. -/
def Unsettles (z : Global) (c : Control) : Call → Prop
  | .srtp packet => Intact packet ∧ Provokes z.sha256 c (rtpInfo packet 0)
  | _ => False

/-- The MAC that a GoClear message must carry. -/
def clearHmac (c : Control) : Octets :=
  (c.session.hash.hmac c.cc.peerHmackey (cstring "GoClear")).take zrtpHmacSize

/-- The packet is a GoClear message with the right MAC. -/
def AuthenticGoclear (c : Control) : Call → Prop
  | .srtp packet =>
    getType packet = .goclear ∧ slice (rtpInfo packet 0).message 12 zrtpHmacSize = clearHmac c
  | _ => False

/-- No media packet that `zrtp_process_rtp` is given now comes back with `ok`
    and without having been encrypted. -/
def Protects (z : Global) (id : Nat) (s : ReplayCtx × Stream) : Prop :=
  ∀ packet, getType packet = .none →
    (processRtp z id s.1 s.2 packet).outcome.status = .ok →
      (processRtp z id s.1 s.2 packet).outcome.iv ≠ none

instance (info : RtpInfo) : Decidable (Framed info) := inferInstanceAs (Decidable (_ ∧ _))

instance (packet : Octets) : Decidable (Intact packet) := inferInstanceAs (Decidable (_ ∧ _))

instance (c : Control) (message : Octets) : Decidable (RelayRefused c message) :=
  inferInstanceAs (Decidable (_ ∧ _))

instance (sha256 : Hash) (c : Control) (info : RtpInfo) : Decidable (Provokes sha256 c info) :=
  inferInstanceAs (Decidable (_ ∨ _))

instance (z : Global) (c : Control) (call : Call) : Decidable (Unsettles z c call) :=
  match call with
  | .srtp _ => inferInstanceAs (Decidable (_ ∧ _))
  | .rtp _ | .rtcp _ | .srtcp _ => inferInstanceAs (Decidable False)

instance (c : Control) (call : Call) : Decidable (AuthenticGoclear c call) :=
  match call with
  | .srtp _ => inferInstanceAs (Decidable (_ ∧ _))
  | .rtp _ | .rtcp _ | .srtcp _ => inferInstanceAs (Decidable False)

/-- After each of the calls, and before the first. -/
def ProtectsThroughout (z : Global) (id : Nat) (s : ReplayCtx × Stream) (calls : List Call) :
    Prop :=
  ∀ done, done <+: calls → Protects z id (final (callStep z id) s done)

/-- The call does not unsettle the stream it finds. -/
def Settled (z : Global) (s : ReplayCtx × Stream) (call : Call) : Prop :=
  ¬ Unsettles z s.2.control call

instance (z : Global) (s : ReplayCtx × Stream) (call : Call) : Decidable (Settled z s call) :=
  inferInstanceAs (Decidable (¬ _))

/-- The two states that an error leads to. -/
def Failed (c : Control) : Prop := c.state = .initiatingError ∨ c.state = .error

/-- The stream is secure, under the keys and in the session of `c`. -/
structure StillSecure (c c' : Control) : Prop where
  state : c'.state = .secure
  cc : c'.cc = c.cc
  session : c'.session = c.session

theorem StillSecure.refl {c : Control} (h : c.state = .secure) : StillSecure c c := ⟨h, rfl, rfl⟩

section Messages

variable {c : Control} {info : RtpInfo} {code : ProtocolError} {status : ZrtpStatus}

/-- A secure stream that is told to fail fails. -/
theorem failed_enterInitiatingerror (h : c.state = .secure) (notif : Bool) :
    Failed (enterInitiatingerror c code notif status).control := by
  rw [enterInitiatingerror, if_pos (by rw [h]; decide)]
  cases notif with
  | true => exact Or.inl rfl
  | false => exact Or.inr rfl

/-- A relayed SAS that is accepted, or not authentic, changes no more than two
    flags. -/
theorem stillSecure_processSasrelay (h : c.state = .secure)
    (haccepted : ¬ RelayRefused c info.message) :
    StillSecure c (processSasrelay c info).control := by
  rw [processSasrelay]
  by_cases hmitm : c.peerMitmFlag = false
  · rw [if_pos hmitm]
    exact StillSecure.refl h
  rw [if_neg hmitm]
  by_cases hhmac : relayHmacCorrect c info.message = false
  · rw [if_pos hhmac]
    exact StillSecure.refl h
  rw [if_neg hhmac]
  have hauthentic : c.peerMitmFlag = true ∧ relayHmacCorrect c info.message = true :=
    ⟨Bool.eq_true_of_not_eq_false hmitm, Bool.eq_true_of_not_eq_false hhmac⟩
  have hgood := fun hbad => haccepted ⟨hauthentic.1, hauthentic.2, hbad⟩
  rw [if_neg (fun hscheme => hgood (Or.inl hscheme)), if_neg (fun hsas => hgood (Or.inr hsas))]
  exact ⟨h, rfl, rfl⟩

/-- A relayed SAS that is refused makes the stream fail. -/
theorem failed_processSasrelay (h : c.state = .secure) (hrefused : RelayRefused c info.message) :
    Failed (processSasrelay c info).control := by
  rcases hrefused with ⟨hmitm, hhmac, hbad⟩
  rw [processSasrelay, if_neg (by rw [hmitm]; decide), if_neg (by rw [hhmac]; decide)]
  by_cases hscheme : slice (relayPlain c info.message) 4 4 ∉ c.session.profile.sasSchemes
  · rw [if_pos hscheme]
    refine failed_enterInitiatingerror ?_ true
    exact h
  · rcases hbad with hbad | hbad
    · exact absurd hbad hscheme
    · rw [if_neg hscheme, if_pos hbad]
      refine failed_enterInitiatingerror ?_ true
      exact h

/-- A GoClear message without the right MAC is ignored where it is allowed. -/
theorem stillSecure_goclear (h : c.state = .secure) (htype : info.type = .goclear)
    (hallow : c.allowclear = true)
    (hforged : slice info.message 12 zrtpHmacSize ≠ clearHmac c) :
    StillSecure c (whileInSecure c info).control := by
  have hdone : processGoclear c info = .unchanged c .fail := by
    rw [processGoclear, if_neg (by rw [hallow]; decide), if_pos fun heq => hforged heq.symm]
  simp only [whileInSecure, htype, hdone]
  exact StillSecure.refl h

/-- Where it is not allowed, any GoClear message makes the stream fail. -/
theorem failed_goclear (h : c.state = .secure) (htype : info.type = .goclear)
    (hallow : c.allowclear = false) : Failed (whileInSecure c info).control := by
  have hdone : processGoclear c info = enterInitiatingerror c .goclearUnsp true .fail := by
    rw [processGoclear, if_pos hallow]
  have hfail : (enterInitiatingerror c .goclearUnsp true .fail).status ≠ .ok := by
    rw [status_enterInitiatingerror]
    decide
  simp only [whileInSecure, htype, hdone, if_neg hfail]
  exact failed_enterInitiatingerror h true

/-- The handler keeps a secure stream secure unless it is provoked. -/
theorem stillSecure_whileInSecure {sha256 : Hash} (h : c.state = .secure)
    (hprotocol : c.protocol.isSome = true) (hsettled : ¬ Provokes sha256 c info)
    (hforged : info.type = .goclear → slice info.message 12 zrtpHmacSize ≠ clearHmac c) :
    StillSecure c (whileInSecure c info).control := by
  have hmessage : ¬ (info.type = .goclear ∧ c.allowclear = false ∨
      info.type = .sasrelay ∧ RelayRefused c info.message) :=
    fun hbad => hsettled (Or.inr (Or.inr ⟨hprotocol, hbad⟩))
  by_cases hgoclear : info.type = .goclear
  · have hallow : c.allowclear = true :=
      Bool.eq_true_of_not_eq_false fun hoff => hmessage (Or.inl ⟨hgoclear, hoff⟩)
    exact stillSecure_goclear h hgoclear hallow (hforged hgoclear)
  by_cases hrelay : info.type = .sasrelay
  · have haccepted : ¬ RelayRefused c info.message := fun hbad => hmessage (Or.inr ⟨hrelay, hbad⟩)
    simp only [whileInSecure, hrelay]
    exact stillSecure_processSasrelay h haccepted
  · -- The handler has no other case.
    have hdone : whileInSecure c info = .unchanged c .ok := by
      revert hgoclear hrelay
      rw [whileInSecure]
      cases info.type <;> simp
    rw [hdone]
    exact StillSecure.refl h

/-- A message that a secure stream has parsed goes to its handler, unless it is
    a ping or there is no protocol. -/
theorem control_processParsed (z : Global) (id : Nat) (rp : ReplayCtx) {stream : Stream}
    (h : stream.control.state = .secure) (hmsg : info.type ≠ .none) :
    (processParsed z id rp stream info).stream.control =
      if info.type = .zfoneping ∨ stream.control.protocol.isNone = true then stream.control
      else (whileInSecure stream.control info).control := by
  -- An Error message does not count in this state.
  have herror : handleError stream.control info = stream.control := by
    rw [handleError, h]
    exact ite_self _
  have hstarted : ¬ stream.control.state.number < StreamState.start.number := by
    rw [h]
    decide
  have hneeds : needsProtocol stream.control.state = true := by
    rw [h]
    rfl
  rw [processParsed]
  by_cases hping : info.type = .zfoneping
  · rw [if_pos hping, if_pos (Or.inl hping)]
  rw [if_neg hping, if_neg hstarted]
  by_cases hprotocol : stream.control.protocol.isNone = true
  · rw [if_pos ⟨hneeds, hprotocol⟩, if_pos (Or.inr hprotocol)]
  · rw [if_neg fun hboth => hprotocol hboth.2, if_neg (not_or.mpr ⟨hping, hprotocol⟩), herror]
    simp only [hmsg, false_and, if_false, stateHandler, h]

/-- GoClear and SASrelay continue no hash chain. -/
theorem hashCorrect_of_type {sha256 : Hash}
    (htype : info.type = .goclear ∨ info.type = .sasrelay) :
    hashCorrect sha256 c info = true ∧ storedHmacCorrect sha256 c info = true := by
  have himage : hashImage sha256 c info = none := by
    rcases htype with htype | htype
    · simp only [hashImage, htype]
    · simp only [hashImage, htype]
  simp only [hashCorrect, storedHmacCorrect, himage, and_self]

/-- A message that passed the checks and still provokes an error is one that
    its handler does not accept. -/
theorem failed_whileInSecure {sha256 : Hash} (h : c.state = .secure)
    (hpassed : sizeCorrect c info = true ∧ storedHmacCorrect sha256 c info = true)
    (hprovokes : Provokes sha256 c info) :
    ¬ (info.type = .zfoneping ∨ c.protocol.isNone = true) ∧
      Failed (whileInSecure c info).control := by
  rcases hprovokes with hsize | ⟨_, hstored⟩ | ⟨hprotocol, hmessage⟩
  · exact absurd hsize (by rw [hpassed.1]; decide)
  · exact absurd hstored (by rw [hpassed.2]; decide)
  · have hsome : ¬ c.protocol.isNone = true := by
      rw [← Option.not_isSome, hprotocol]
      decide
    rcases hmessage with ⟨htype, hallow⟩ | ⟨htype, hrefused⟩
    · refine ⟨not_or.mpr ⟨?_, hsome⟩, failed_goclear h htype hallow⟩
      rw [htype]
      decide
    · refine ⟨not_or.mpr ⟨?_, hsome⟩, ?_⟩
      · rw [htype]
        decide
      · simp only [whileInSecure, htype]
        exact failed_processSasrelay h hrefused

/-- Nothing but the checks and the handler touch the stream, and the handler
    is reached by a message that passed and is not a ping. -/
theorem control_processSrtp (z : Global) (id : Nat) (rp : ReplayCtx) {stream : Stream}
    {packet : Octets} (h : stream.control.state = .secure) (hlen : rtpHdrSize < packet.length)
    (hmsg : getType packet ≠ .none) (hparsed : getType packet ≠ .unparsed) :
    (processSrtp z id rp stream packet).stream.control =
      let info := messageInfo stream packet
      let checked := checkMessage z.sha256 stream.control info
      if checked.status ≠ .ok then checked.control
      else if info.type = .zfoneping ∨ stream.control.protocol.isNone = true then stream.control
      else (whileInSecure stream.control info).control := by
  rw [processSrtp, if_neg (by omega), preparse_message z.sha256 stream (by omega) hmsg hparsed]
  dsimp only
  have hinfo : (messageInfo stream packet).type ≠ .none := hmsg
  have hchecked := checked_checkMessage z.sha256 stream.control (messageInfo stream packet)
  revert hinfo hchecked
  generalize messageInfo stream packet = info
  generalize checkMessage z.sha256 stream.control info = checked
  intro hinfo hchecked
  by_cases hstatus : checked.status = .ok
  · have hpassed := hchecked.control_of_ok hstatus
    rw [hpassed]
    simp only [Handled.unchanged, ne_eq, not_true, if_false]
    have hnoted : (⟨stream.control, (convertSeq stream.mediaCtx packet false true).2⟩ :
        Stream).control.state = .secure := h
    exact control_processParsed z id _ hnoted hinfo
  · simp only [ne_eq, hstatus, not_false_eq_true, if_true]

end Messages

section Calls

variable {z : Global} {id : Nat} {rp : ReplayCtx} {stream : Stream} {packet : Octets}

/-- A packet that is no message of any kind leaves the protocol alone. -/
theorem control_processSrtp_other (h : stream.control.state = .secure)
    (hother : packet.length ≤ rtpHdrSize ∨ getType packet = .none ∨ getType packet = .unparsed) :
    (processSrtp z id rp stream packet).stream.control = stream.control := by
  by_cases hlen : packet.length ≤ rtpHdrSize
  · rw [processSrtp, if_pos hlen]
  rcases hother with hshort | hmedia | hbad
  · exact absurd hshort hlen
  · rw [processSrtp_media z id rp stream (by rw [h]; rfl) (by omega) hmedia]
    rfl
  · rw [processSrtp, if_neg hlen]
    simp only [preparse, hbad, or_true, if_true, ne_eq, reduceCtorEq, not_false_eq_true]

/-- What goes out is not checked. -/
theorem control_preparse_output (sha256 : Hash) :
    (preparse sha256 stream packet false).stream.control = stream.control := by
  simp only [preparse, Bool.false_eq_true, false_and, if_false]
  split
  · rfl
  · rfl

/-- Sending leaves the protocol alone. -/
theorem control_processRtp : (processRtp z id rp stream packet).stream.control = stream.control := by
  have hpre : (preparse z.sha256 stream packet false).stream.control = stream.control :=
    control_preparse_output z.sha256
  simp only [processRtp]
  split
  · rfl
  split
  · exact hpre
  split
  · exact hpre
  split
  · exact hpre
  split
  · exact hpre
  · exact hpre

theorem stream_processRtcp : (processRtcp id rp stream packet).stream = stream := by
  simp only [processRtcp]
  split
  · rfl
  split
  · split
    · rfl
    · rfl
  · rfl

theorem stream_processSrtcp : (processSrtcp id rp stream packet).stream = stream := by
  simp only [processSrtcp]
  split
  · rfl
  · rfl
  · rfl
  · rfl
  · split
    · rfl
    · rfl
  · split
    · rfl
    · rfl
  · rfl

/-- A message that neither provokes an error nor is an authentic GoClear
    leaves a secure stream secure. -/
theorem secure_of_message (h : stream.control.state = .secure) (hlen : rtpHdrSize < packet.length)
    (hmsg : getType packet ≠ .none) (hparsed : getType packet ≠ .unparsed)
    (hsettled : ¬ Unsettles z stream.control (.srtp packet))
    (hforged : ¬ AuthenticGoclear stream.control (.srtp packet)) :
    StillSecure stream.control (processSrtp z id rp stream packet).stream.control := by
  have hquiet : Framed (messageInfo stream packet) →
      ¬ Provokes z.sha256 stream.control (messageInfo stream packet) :=
    fun hframed hbad => hsettled ⟨⟨hlen, hmsg, hparsed, hframed⟩, hbad⟩
  have hmac : (messageInfo stream packet).type = .goclear →
      slice (messageInfo stream packet).message 12 zrtpHmacSize ≠ clearHmac stream.control :=
    fun htype hsame => hforged ⟨htype, hsame⟩
  have hchecked := checked_checkMessage z.sha256 stream.control (messageInfo stream packet)
  rw [control_processSrtp z id rp h hlen hmsg hparsed]
  dsimp only
  revert hquiet hmac hchecked
  generalize messageInfo stream packet = info
  generalize checkMessage z.sha256 stream.control info = checked
  intro hquiet hmac hchecked
  cases hchecked with
  | broken status _ hbad =>
      have hrefused : (Handled.unchanged stream.control status).status ≠ .ok := hbad
      rw [if_pos hrefused]
      exact StillSecure.refl h
  | size hframed hsize => exact absurd (Or.inl hsize) (hquiet hframed)
  | hash _ _ _ =>
      rw [if_pos (by simp only [Handled.unchanged, ne_eq, reduceCtorEq, not_false_eq_true])]
      exact StillSecure.refl h
  | stored hframed _ hhash hstored =>
      exact absurd (Or.inr (Or.inl ⟨hhash, hstored⟩)) (hquiet hframed)
  | passed hframed _ _ _ =>
      simp only [Handled.unchanged, ne_eq, not_true, if_false]
      by_cases hskip : info.type = .zfoneping ∨ stream.control.protocol.isNone = true
      · rw [if_pos hskip]
        exact StillSecure.refl h
      · rw [if_neg hskip]
        have hprotocol : stream.control.protocol.isSome = true := by
          rw [← Option.not_isNone, Bool.not_eq_true']
          exact Bool.eq_false_iff.mpr fun hnone => hskip (Or.inr hnone)
        exact stillSecure_whileInSecure h hprotocol (hquiet hframed) hmac

/-- A call that neither provokes an error nor is an authentic GoClear leaves a
    secure stream secure. -/
theorem secure_of_settled {call : Call} (h : stream.control.state = .secure)
    (hsettled : ¬ Unsettles z stream.control call)
    (hforged : ¬ AuthenticGoclear stream.control call) :
    StillSecure stream.control (process z id rp stream call).stream.control := by
  cases call with
  | rtp packet =>
      rw [process, control_processRtp]
      exact StillSecure.refl h
  | rtcp packet =>
      rw [process, stream_processRtcp]
      exact StillSecure.refl h
  | srtcp packet =>
      rw [process, stream_processSrtcp]
      exact StillSecure.refl h
  | srtp packet =>
      rw [process]
      by_cases hother : packet.length ≤ rtpHdrSize ∨ getType packet = .none ∨
          getType packet = .unparsed
      · rw [control_processSrtp_other h hother]
        exact StillSecure.refl h
      · rw [not_or, not_or] at hother
        exact secure_of_message h (by omega) hother.2.1 hother.2.2 hsettled hforged

/-- A call that provokes an error makes a secure stream fail. -/
theorem failed_of_unsettles {call : Call} (h : stream.control.state = .secure)
    (hunsettles : Unsettles z stream.control call) :
    Failed (process z id rp stream call).stream.control := by
  cases call with
  | rtp packet => exact hunsettles.elim
  | rtcp packet => exact hunsettles.elim
  | srtcp packet => exact hunsettles.elim
  | srtp packet =>
      rcases hunsettles with ⟨⟨hlen, hmsg, hparsed, hframed⟩, hprovokes⟩
      have hframed' : Framed (messageInfo stream packet) := hframed
      have hprovokes' : Provokes z.sha256 stream.control (messageInfo stream packet) := hprovokes
      have hchecked := checked_checkMessage z.sha256 stream.control (messageInfo stream packet)
      rw [process, control_processSrtp z id rp h hlen hmsg hparsed]
      dsimp only
      revert hframed' hprovokes' hchecked
      generalize messageInfo stream packet = info
      generalize checkMessage z.sha256 stream.control info = checked
      intro hframed hprovokes hchecked
      cases hchecked with
      | broken status hbroken _ => exact absurd hframed hbroken
      | size _ _ =>
          rw [status_enterInitiatingerror, if_pos (by decide)]
          exact failed_enterInitiatingerror h true
      | stored _ _ _ _ =>
          rw [status_enterInitiatingerror, if_pos (by decide)]
          exact failed_enterInitiatingerror h false
      | hash _ hsize hhash =>
          -- Neither of the two messages left over has a hash to be wrong.
          rcases hprovokes with hbad | ⟨hgood, _⟩ | ⟨_, hmessage⟩
          · exact absurd hbad (by rw [hsize]; decide)
          · exact absurd hgood (by rw [hhash]; decide)
          · have htype : info.type = .goclear ∨ info.type = .sasrelay :=
              hmessage.imp And.left And.left
            exact absurd (hashCorrect_of_type htype).1 (by rw [hhash]; decide)
      | passed _ hsize _ hstored =>
          rcases failed_whileInSecure h ⟨hsize, hstored⟩ hprovokes with ⟨hreached, hfailed⟩
          simp only [Handled.unchanged, ne_eq, not_true, if_false]
          rw [if_neg hreached]
          exact hfailed

/-- A secure stream protects: what it sends is encrypted or refused. -/
theorem protects_of_secure (h : stream.control.state = .secure) : Protects z id (rp, stream) := by
  intro packet htype hok
  by_cases hlen : rtpHdrSize ≤ packet.length
  · rw [processRtp_media z id rp stream (by rw [h]; rfl) hlen htype] at hok ⊢
    simp only [protocolEncrypt] at hok ⊢
    cases hsrtp : stream.control.srtp with
    | none =>
        rw [hsrtp] at hok
        exact absurd hok (by simp only [Outcome.untouched, reduceCtorEq, not_false_eq_true])
    | some ctx =>
        rw [hsrtp] at hok
        simp only [if_true] at hok ⊢
        rcases srtpProtect_cases ctx id rp.outHead (mediaInfo stream packet false) with
          ⟨hbad, _⟩ | ⟨_, _, _, hiv, _⟩
        · exact absurd hok hbad
        · rw [hiv]
          exact Option.some_ne_none _
  · -- A packet without a header is refused before its type counts.
    have hbad : (processRtp z id rp stream packet).outcome.status = .fail := by
      have hstarted : ¬ stream.control.state.number < StreamState.start.number := by
        rw [h]
        decide
      simp only [processRtp, if_neg hstarted, preparse]
      rw [if_pos (Or.inl (by omega))]
      simp only [ne_eq, reduceCtorEq, not_false_eq_true, if_true, Outcome.untouched]
    rw [hbad] at hok
    exact absurd hok (by decide)

/-- A stream that has failed sends media as it is. -/
theorem outcome_of_failed (h : Failed stream.control) (hlen : rtpHdrSize ≤ packet.length)
    (htype : getType packet = .none) :
    (processRtp z id rp stream packet).outcome = .untouched .ok packet := by
  have hnone : (mediaInfo stream packet false).type = .none := htype
  simp only [processRtp, preparse_media z.sha256 stream false hlen htype]
  rcases h with h | h
  · simp only [h, hnone]
    rfl
  · simp only [h, hnone]
    rfl

theorem not_protects_of_failed (h : Failed stream.control) : ¬ Protects z id (rp, stream) := by
  intro hprotects
  have hlen : rtpHdrSize ≤ (List.replicate 12 (0 : UInt8)).length := by decide
  have hzero : ofBigEndian (slice (List.replicate 12 0) 4 4) = 0 := by decide
  have htype : getType (List.replicate 12 0) = .none := by
    rw [getType, hzero, if_pos (by simp only [zrtpPacketsMagic]; omega)]
  have hiv := hprotects _ htype
  rw [outcome_of_failed h hlen htype] at hiv
  exact hiv rfl rfl

/-- A secure stream knows an authentic GoClear message by the same MAC as
    before. -/
theorem StillSecure.authenticGoclear {c c' : Control} (h : StillSecure c c') (call : Call) :
    AuthenticGoclear c' call ↔ AuthenticGoclear c call := by
  cases call with
  | rtp packet => exact Iff.rfl
  | rtcp packet => exact Iff.rfl
  | srtcp packet => exact Iff.rfl
  | srtp packet => simp only [AuthenticGoclear, clearHmac, h.cc, h.session]

/-- Whatever has been received and sent, and unless an authentic GoClear was
    among it, a stream that was secure sends no media as it is exactly when no
    call has unsettled it. -/
theorem media_protected_iff (z : Global) (id : Nat) (s : ReplayCtx × Stream) (calls : List Call)
    (hsecure : s.2.control.state = .secure)
    (hforged : ∀ call ∈ calls, ¬ AuthenticGoclear s.2.control call) :
    ProtectsThroughout z id s calls ↔ Along (callStep z id) (Settled z) s calls := by
  -- The run is followed while the stream stays secure under the same keys.
  induction calls generalizing s with
  | nil =>
      refine ⟨fun _ x hx => absurd hx List.not_mem_nil, ?_⟩
      intro _ done hdone
      rw [List.prefix_nil.mp hdone]
      exact protects_of_secure hsecure
  | cons call calls ih =>
      rw [Lib.along_cons]
      have hforgedHere := hforged call List.mem_cons_self
      by_cases hunsettles : Unsettles z s.2.control call
      · -- The call after which media is sent as it is.
        have hfailed : Failed (callStep z id s call).1.2.control :=
          failed_of_unsettles hsecure hunsettles
        refine ⟨fun hall => ?_, fun hall => absurd hunsettles hall.1⟩
        exact absurd (hall [call] (by simp only [List.cons_prefix_cons, List.nil_prefix, and_self]))
          (not_protects_of_failed hfailed)
      · have hstill : StillSecure s.2.control (callStep z id s call).1.2.control :=
          secure_of_settled hsecure hunsettles hforgedHere
        have hrest := ih (callStep z id s call).1 hstill.state (fun later hlater hbad =>
          hforged later (List.mem_cons_of_mem _ hlater) ((hstill.authenticGoclear later).mp hbad))
        constructor
        · intro hall
          refine ⟨hunsettles, hrest.mp ?_⟩
          intro done hdone
          exact hall (call :: done) ((List.prefix_cons_inj call).mpr hdone)
        · rintro ⟨_, hall⟩ done hdone
          cases done with
          | nil => exact protects_of_secure hsecure
          | cons first done =>
              rcases List.cons_prefix_cons.mp hdone with ⟨rfl, htail⟩
              exact hrest.mpr hall done htail

/-- A GoClear message with this MAC. -/
def sampleGoclear (hmac : Octets) : Octets :=
  let packet := [0x10, 0, 0, 1, 0x5a, 0x52, 0x54, 0x50, 7, 0, 0, 0] ++
    [0x50, 0x5a, 0, 5] ++ cstring "GoClear " ++ hmac
  packet ++ generateCrc packet

/-- A stream that allows GoClear ignores a forged one and goes on encrypting. -/
theorem media_protected_goclear :
    ProtectsThroughout sampleGlobal 0 (.init, sampleSecure true)
      [.srtp (sampleGoclear (List.replicate 8 1)), .rtp (sampleMedia 7 1 [1, 2, 3])] :=
  (media_protected_iff sampleGlobal 0 (.init, sampleSecure true)
    [.srtp (sampleGoclear (List.replicate 8 1)), .rtp (sampleMedia 7 1 [1, 2, 3])] rfl
    (by decide +kernel)).mpr (by decide +kernel)

/-- A stream that does not allow it fails on the same message and sends its
    media as it is. -/
theorem media_downgraded :
    ¬ AuthenticGoclear (sampleSecure false).control
        (.srtp (sampleGoclear (List.replicate 8 1))) ∧
      getType (sampleMedia 7 1 [1, 2, 3]) = .none ∧
      (process sampleGlobal 0
          (final (callStep sampleGlobal 0) (.init, sampleSecure false)
            [.srtp (sampleGoclear (List.replicate 8 1))]).1
          (final (callStep sampleGlobal 0) (.init, sampleSecure false)
            [.srtp (sampleGoclear (List.replicate 8 1))]).2
          (.rtp (sampleMedia 7 1 [1, 2, 3]))).outcome =
        .untouched .ok (sampleMedia 7 1 [1, 2, 3]) := by
  decide +kernel

end Calls

end Engine

end Zrtp

end CryptoOpal
