import Mozaic.MozaicClient.Handshake
import Mozaic.MozaicClient.CoreFormat

/-! What the two ends of a connection agree on, whatever arrives when. -/
namespace Mozaic.MozaicClient.Handshake
open Rust Outcome Framing Network

/-! ## Both sides -/

section Run
variable [CoreFormat] [HandshakeFormat] [PacketFormat] {token : Bytes} {ops : List Op}
  {s : Handshake} {said : Said} {received frames : List Bytes} {more : Bytes}
  {handler : ConnectionHandler} {routed : Option Routed} {served : List Packet}

omit [PacketFormat] in
theorem Garbled.mono {said' : Said} {e : HandlerPanic} (h : Garbled said e)
    (hle : said.before <+: said'.before) : Garbled said' e := by
  obtain ⟨data, hdata, herr⟩ := h
  refine ⟨data, ?_, herr⟩
  obtain ⟨rest, hrest⟩ := hle
  rw [← hrest, List.head?_append, hdata]
  rfl

/-- A run only stops where the sink of the handler or the routing channel fails, or at a message
that was sent too early and is no request. -/
def Stops (ops : List Op) : Stop → Prop
  | .handler e => (∃ env, Op.poll env ∈ ops ∧ env.Fails e) ∨ Garbled (saidBy ops) e
  | .stream _ | .client _ => False

theorem Stage.answers [Varint]
    (h : Stage token ops said more handler routed received served frames) :
    Answers served frames := by
  have hone (send : Send) (bytes : Bytes) (h : Answers [] [bytes]) :
      Answers [] (framesOf send bytes) := by
    rw [framesOf]
    split
    · exact h
    · exact .nothing
  cases h with
  | waiting => exact .nothing
  | accepting send => exact hone send acceptance .accepted
  | refusing send => exact hone send refusal .refused
  | refused => exact .refused
  | routed => exact .accepted

/-- No frame is too long. -/
structure Sized (token : Bytes) (said : Said) (served : List Packet) : Prop where
  request : Short (CoreFormat.encodeRequest ⟨token⟩)
  upstream : ∀ bytes ∈ upstream token said, Short bytes
  served : ∀ packet ∈ served, Short (PacketFormat.encode packet)
  acceptance : Short acceptance
  refusal : Short refusal

theorem Sized.answers (h : Sized token said served) (hanswers : Answers served frames) :
    ∀ bytes ∈ frames, Short bytes := by
  cases hanswers with
  | nothing => simp
  | accepted =>
    intro bytes hbytes
    rcases List.mem_cons.mp hbytes with rfl | hbytes
    · exact h.acceptance
    · obtain ⟨packet, hpacket, rfl⟩ := List.mem_map.mp hbytes
      exact h.served packet hpacket
  | refused => simpa using h.refusal

variable [Varint]

/-- What holds of both ends at any time. -/
structure Sound (token : Bytes) (ops : List Op) (s : Handshake) (frames : List Bytes) : Prop where
  sized : Sized token s.said s.served
  asks : s.client.token = token
  written : s.client.written = wire (upstream token s.said)
  arrived : s.arrived ≤ s.client.written.length
  stage : Stage token ops s.said (s.client.written.drop s.arrived) s.handler s.routed s.received
    s.served frames
  delivered : s.delivered ≤ (wire frames).length
  read : Arrived LengthDelimited.encoded frames [] ((wire frames).take s.delivered)
    s.client.reader.pushed s.client.reader.buffer
  told : Told s.client s.client.reader.pushed

/-- The server goes on and writes more, and the client does not notice yet. -/
theorem Sound.extend {s' : Handshake} {after : List Bytes} (h : Sound token ops s frames)
    (hclient : s'.client = s.client) (harrived : s'.arrived = s.arrived)
    (hdelivered : s'.delivered = s.delivered) (hsized : Sized token s'.said s'.served)
    (hsaid : s'.said = s.said) (hpre : frames <+: after)
    (hstage : Stage token ops s.said (s.client.written.drop s.arrived) s'.handler s'.routed
      s'.received s'.served after) :
    Sound token ops s' after := by
  obtain ⟨new, rfl⟩ := hpre
  have hwire : wire (frames ++ new) = wire frames ++ wire new := by simp [wire]
  refine ⟨hsized, ?_, ?_, ?_, ?_, ?_, ?_, ?_⟩
  · rw [hclient]
    exact h.asks
  · rw [hclient, hsaid]
    exact h.written
  · rw [hclient, harrived]
    exact h.arrived
  · rw [hclient, hsaid, harrived]
    exact hstage
  · rw [hdelivered, hwire, List.length_append]
    exact h.delivered.trans (Nat.le_add_right _ _)
  · rw [hdelivered, hclient, hwire, List.take_append_of_le_length h.delivered]
    exact h.read.more new
  · rw [hclient]
    exact h.told

theorem Sound.new (token : Bytes) (ops : List Op) (hsized : Sized token (.connecting []) []) :
    Sound token ops (new token) [] := by
  refine ⟨hsized, rfl, rfl, Nat.zero_le _, ?_, Nat.zero_le _, arrived_nil, .nothing rfl rfl⟩
  exact .waiting .new (ProtobufTransport.upcoming_new _) rfl

section Writing
variable [Writer] [Ldelim] [Leb128]

/-- The client writes one more frame. -/
theorem Sound.write (h : Sound token ops s frames) {bytes : Bytes} (hshort : Short bytes)
    {said : Said} (hupstream : upstream token said = upstream token s.said ++ [bytes])
    (hstage : Stage token ops said
      (s.client.written.drop s.arrived ++ LengthDelimited.encoded bytes) s.handler s.routed
      s.received s.served frames) :
    Sound token ops { s with client := s.client.write bytes, said } frames := by
  have hwritten : (s.client.write bytes).written = s.client.written ++
      LengthDelimited.encoded bytes := by
    rw [← ldelim_encoded hshort]
    rfl
  refine ⟨⟨h.sized.request, ?_, h.sized.served, h.sized.acceptance, h.sized.refusal⟩, h.asks, ?_,
    ?_, ?_, h.delivered, h.read, h.told.congr rfl rfl⟩
  · intro bytes' hbytes'
    rw [hupstream] at hbytes'
    rcases List.mem_append.mp hbytes' with hbytes' | hbytes'
    · exact h.sized.upstream bytes' hbytes'
    · rw [List.mem_singleton.mp hbytes']
      exact hshort
  · rw [hwritten, h.written, hupstream]
    simp [wire]
  · rw [hwritten, List.length_append]
    exact h.arrived.trans (Nat.le_add_right _ _)
  · rw [hwritten, List.drop_append_of_le_length h.arrived]
    exact hstage

theorem Sound.send (h : Sound token ops s frames) {data : Bytes}
    (hshort : Short (CoreFormat.encodePacket ⟨some (.message data)⟩)) :
    Sound token ops (s.send data) frames :=
  h.write hshort (upstream_send token s.said data) (h.stage.send data)

theorem Sound.connected (h : Sound token ops s frames) : Sound token ops s.connected frames := by
  rw [Handshake.connected]
  split
  · rename_i early hsaid
    have hstage := h.stage
    rw [hsaid] at hstage
    rw [Connection.sendConnectionRequest, h.asks]
    refine h.write h.sized.request ?_ hstage.ask
    rw [hsaid]
    rfl
  · exact h

end Writing

theorem Sound.arrive (h : Sound token ops s frames) (n : Nat) :
    Sound token ops (s.arrive n) frames := by
  rw [Handshake.arrive]
  split
  · exact h
  · have hsplit : (s.client.written.drop s.arrived).take n ++
        (s.client.written.drop s.arrived).drop n = s.client.written.drop s.arrived :=
      List.take_append_drop n _
    refine ⟨h.sized, h.asks, h.written, ?_, ?_, h.delivered, h.read, h.told⟩
    · have harrived := h.arrived
      simp only [List.length_take, List.length_drop]
      omega
    · have hmore : s.client.written.drop
          (s.arrived + ((s.client.written.drop s.arrived).take n).length) =
          (s.client.written.drop s.arrived).drop n := by
        rw [List.drop_drop]
        simp only [List.length_take, List.length_drop]
        rcases le_total n (s.client.written.length - s.arrived) with hle | hle
        · rw [Nat.min_eq_left hle]
        · rw [Nat.min_eq_right hle, List.drop_of_length_le (by omega),
            List.drop_of_length_le (by omega)]
      have hstage := h.stage
      rw [← hsplit] at hstage
      dsimp only
      rw [hmore]
      exact hstage.arrive

section Reading
variable [FramedPoll] [Leb128] [ReadsOn] [Interoperates]

theorem Sound.poll [SendPoll] [SendsOn] (h : Sound token ops s frames)
    (hsaid : s.said.before <+: (saidBy ops).before)
    (hstrange : ∀ data ∈ (saidBy ops).before.head?, Strange ops data) {env : Surroundings}
    (hop : Op.poll env ∈ ops) :
    Safe (Stops ops) (fun s' => ∃ after, Sound token ops s' after) (s.poll env) := by
  have hfits (bytes : Bytes) (hbytes : bytes ∈ upstream token s.said) : Fits bytes :=
    (h.sized.upstream bytes hbytes).fits
  have hfirst (data : Bytes) (hdata : data ∈ s.said.before.head?) : Strange ops data := by
    refine hstrange data ?_
    obtain ⟨rest, hrest⟩ := hsaid
    rw [← hrest, List.head?_append, hdata]
    rfl
  obtain ⟨client, handler, routed, arrived, delivered, said, received, served⟩ := s
  rw [Handshake.poll]
  dsimp only
  cases routed with
  | none =>
    obtain ⟨rfl, rfl, hpolls⟩ := h.stage.poll hfits hfirst hop
    cases hpoll : handler.poll env with
    | error e =>
      rw [hpoll] at hpolls
      exact hpolls.imp (fun hfails => ⟨env, hop, hfails⟩) fun hgarbled => hgarbled.mono hsaid
    | ok r =>
      rw [hpoll] at hpolls
      obtain ⟨after, hpre, hafter⟩ := hpolls
      rcases r with ⟨handler', - | routed⟩
      · exact ⟨after, h.extend rfl rfl rfl h.sized rfl hpre hafter⟩
      · exact ⟨after, h.extend rfl rfl rfl h.sized rfl hpre hafter⟩
  | some routed =>
    obtain ⟨rfl, -⟩ := h.stage.routed_cases
    exact ⟨frames, h⟩

omit [HandshakeFormat] [PacketFormat] [Varint] [FramedPoll] [Leb128] [ReadsOn] [Interoperates] in
theorem mem_upstream {rest : List Bytes} (received : List Bytes) {bytes : Bytes}
    (h : bytes ∈ packets rest) : bytes ∈ upstream token (.asked [] (received ++ rest)) := by
  rw [upstream, packets, packets, List.map_append]
  exact List.mem_append_right _ (List.mem_cons_of_mem _ (List.mem_append_right _ h))

theorem Sound.read_safe (h : Sound token ops s frames) :
    Safe (Stops ops) (fun s' => ∃ after, Sound token ops s' after) s.read := by
  obtain ⟨client, handler, routed, arrived, delivered, said, received, served⟩ := s
  rw [Handshake.read]
  dsimp only
  cases routed with
  | none => exact ⟨frames, h⟩
  | some routed =>
    obtain ⟨handle, transport⟩ := routed
    have hstage := h.stage
    dsimp only at hstage
    obtain ⟨rfl, rfl, hknown, rest, rfl, hup, hwritten⟩ := hstage.routed_cases
    have hfits (bytes : Bytes) (hbytes : bytes ∈ packets rest) : Fits bytes := by
      refine (h.sized.upstream bytes ?_).fits
      exact mem_upstream received hbytes
    dsimp only
    obtain ⟨data, rest', t', rfl, hpoll, hup', hwritten'⟩ | ⟨t', hpoll, hup', hwritten', -⟩ :=
      pollMsg_spec hfits hup
    · rw [hpoll]
      refine ⟨_, h.extend rfl rfl rfl h.sized rfl List.prefix_rfl ?_⟩
      refine .routed handle t' rest' _ served hknown ?_ hup' (hwritten'.trans hwritten)
      simp [data?]
    · rw [hpoll]
      exact ⟨_, h.extend rfl rfl rfl h.sized rfl List.prefix_rfl (.routed handle t' rest received
        served hknown rfl hup' (hwritten'.trans hwritten))⟩

end Reading

theorem Sound.serve (h : Sound token ops s frames) {packet : Packet}
    (hshort : Short (PacketFormat.encode packet)) :
    ∃ after, Sound token ops (s.serve packet) after := by
  obtain ⟨client, handler, routed, arrived, delivered, said, received, served⟩ := s
  rw [Handshake.serve]
  cases routed with
  | none => exact ⟨frames, h⟩
  | some routed =>
    obtain ⟨handle, transport⟩ := routed
    have hstage := h.stage
    dsimp only at hstage
    obtain ⟨rfl, rfl, hknown, rest, rfl, hup, hwritten⟩ := hstage.routed_cases
    have hdown : downstream (served ++ [packet]) =
        downstream served ++ [PacketFormat.encode packet] := by simp [downstream]
    have hsized : Sized token (.asked [] (received ++ rest)) (served ++ [packet]) := by
      refine ⟨h.sized.request, h.sized.upstream, fun p hp => ?_, h.sized.acceptance, h.sized.refusal⟩
      rcases List.mem_append.mp hp with hp | hp
      · exact h.sized.served p hp
      · rw [List.mem_singleton.mp hp]
        exact hshort
    refine ⟨_, h.extend rfl rfl rfl hsized rfl ⟨_, hdown.symm⟩ ?_⟩
    refine .routed handle _ rest received _ hknown rfl hup ?_
    change transport.written ++ _ ++ _ = _
    rw [hwritten, hdown]
    simp [wire, LengthDelimited.encoded, LengthDelimited.encode]

variable [Leb128] [Interoperates] [BufferReader] [Uint32]

theorem Sound.deliver (h : Sound token ops s frames) (n : Nat) :
    Safe (Stops ops) (fun s' => ∃ after, Sound token ops s' after) (s.deliver n) := by
  have hanswer := h.stage.answer_eq
  have hsplit : (wire frames).take s.delivered ++ ((wire frames).drop s.delivered).take n =
      (wire frames).take (s.delivered + (((wire frames).drop s.delivered).take n).length) := by
    rw [List.take_add]
    simp
  have hpre : (wire frames).take s.delivered ++ ((wire frames).drop s.delivered).take n <+:
      wire frames := by
    rw [hsplit]
    exact List.take_prefix _ _
  obtain ⟨client, hchunk, htold, hwritten, htoken, harrived⟩ :=
    onChunk_spec (h.sized.answers h.stage.answers) h.stage.answers h.told h.read hpre
  rw [Handshake.deliver, hanswer, hchunk]
  refine ⟨frames, h.sized, htoken.trans h.asks, hwritten.trans h.written, ?_, ?_, ?_, ?_, htold⟩
  · rw [hwritten]
    exact h.arrived
  · rw [hwritten]
    exact h.stage
  · have hdelivered := h.delivered
    simp only [List.length_take, List.length_drop]
    omega
  · dsimp only
    rw [← hsplit]
    exact harrived

/-- What each operation does to both ends. -/
theorem Sound.step_safe [FramedPoll] [ReadsOn] [SendPoll] [SendsOn] [Writer] [Ldelim]
    (h : Sound token ops s frames) (hsaid : s.said.before <+: (saidBy ops).before)
    (hstrange : ∀ data ∈ (saidBy ops).before.head?, Strange ops data) {op : Op} (hop : op ∈ ops)
    (hsized : op.Sized) :
    Safe (Stops ops) (fun s' => ∃ after, Sound token ops s' after) (s.step op) := by
  cases op with
  | send data => exact ⟨frames, h.send hsized⟩
  | connected => exact ⟨frames, h.connected⟩
  | arrive n => exact ⟨frames, h.arrive n⟩
  | poll env => exact h.poll hsaid hstrange hop
  | read => exact h.read_safe
  | serve packet => exact h.serve hsized
  | deliver n => exact h.deliver n

/-- What became of the client's request. -/
inductive Verdict (token : Bytes) (ops : List Op) (s : Handshake) : Prop
  | pending (hrouted : s.routed = none) (hreceived : s.received = [])
      (hdispatched : s.client.dispatched = [])
  | accepted (handle : ClientId) (hearly : s.said.before = []) (hknown : Known token ops handle)
      (hrouted : ∀ r ∈ s.routed, r.1 = handle)
      (hdispatched : s.client.dispatched <+: welcomed s.served)
  | refused (hunknown : Refusable token ops s.said) (hrouted : s.routed = none)
      (hreceived : s.received = []) (hdispatched : s.client.dispatched <+: [.error invalidToken])

end Run

/-! ## What both ends agree on -/

section Agreement
variable [HandshakeFormat] [PacketFormat] {token : Bytes} {ops : List Op} {s : Handshake}
  {frames pushed : List Bytes} {served : List Packet} {c : Connection}

theorem Told.of_nothing (h : Told c []) : c.dispatched = [] := by
  generalize hpushed : ([] : List Bytes) = pushed at h
  cases h with
  | nothing hstate hdispatched => exact hdispatched
  | accepted served hstate hdispatched => cases hpushed
  | refused hstate hdispatched => cases hpushed

variable [CoreFormat]

theorem Sound.pushed_le [Varint] (h : Sound token ops s frames) :
    s.client.reader.pushed <+: frames := by
  obtain ⟨rest, hrest, -⟩ := h.read.rest
  exact ⟨rest, hrest.symm⟩

/-- What the server receives comes from what the client sent, in order and from its beginning. -/
theorem Sound.received_le [Varint] (h : Sound token ops s frames) :
    s.received <+: s.said.after := by
  have hstage := h.stage
  cases hrouted : s.routed with
  | none =>
    rw [hrouted] at hstage
    rw [hstage.unrouted.1]
    exact List.nil_prefix
  | some routed =>
    rw [hrouted] at hstage
    obtain ⟨-, -, -, rest, hsaid, -⟩ := hstage.routed_cases
    rw [hsaid]
    exact ⟨rest, rfl⟩

variable [Interoperates]

theorem Told.of_refused (h : Told c pushed) (hpre : pushed <+: [refusal]) :
    c.dispatched <+: [.error invalidToken] ∧
      (pushed = [refusal] → c.dispatched = [.error invalidToken]) := by
  cases h with
  | nothing hstate hdispatched => simp [hdispatched]
  | accepted served hstate hdispatched =>
    obtain ⟨heq, -⟩ := List.cons_prefix_cons.mp hpre
    exact absurd heq acceptance_ne_refusal
  | refused hstate hdispatched => simp [hdispatched]

theorem Told.of_accepted (h : Told c pushed) (hpre : pushed <+: downstream served) :
    c.dispatched <+: welcomed served ∧
      (pushed = downstream served → c.dispatched = welcomed served) := by
  have hinj : Function.Injective (List.map (PacketFormat.encode)) :=
    List.map_injective_iff.mpr encode_injective
  cases h with
  | nothing hstate hdispatched => simp [hdispatched, downstream]
  | accepted before hstate hdispatched =>
    obtain ⟨rest, hrest⟩ := (List.cons_prefix_cons.mp hpre).2
    obtain ⟨served₁, served₂, rfl, hbefore, -⟩ := List.map_eq_append_iff.mp hrest.symm
    obtain rfl := hinj hbefore
    refine ⟨?_, fun heq => ?_⟩
    · rw [hdispatched, welcomed_append]
      exact List.prefix_append _ _
    · rw [hdispatched, ← hinj (List.cons.inj heq).2]
  | refused hstate hdispatched =>
    obtain ⟨heq, -⟩ := List.cons_prefix_cons.mp hpre
    exact absurd heq.symm acceptance_ne_refusal

variable [Varint]

theorem Sound.verdict (h : Sound token ops s frames) : Verdict token ops s := by
  have hpre := h.pushed_le
  have htold := h.told
  obtain ⟨client, handler, routed, arrived, delivered, said, received, served⟩ := s
  have hstage := h.stage
  dsimp only at hpre htold hstage
  cases hstage with
  | waiting transport hup hwritten =>
    rw [List.prefix_nil.mp hpre] at htold
    exact .pending rfl rfl htold.of_nothing
  | accepting send handle sent hknown hsaid hup hcarries =>
    have hpre' : client.reader.pushed <+: downstream [] :=
      hpre.trans (framesOf_le send acceptance)
    exact .accepted handle (congrArg Said.before hsaid) hknown (by simp) (htold.of_accepted hpre').1
  | refusing send hunknown hcarries =>
    have hpre' := hpre.trans (framesOf_le send refusal)
    exact .refused hunknown rfl rfl (htold.of_refused hpre').1
  | refused dropped hunknown hwritten =>
    exact .refused hunknown rfl rfl (htold.of_refused hpre).1
  | routed handle transport rest received served hknown hsaid hup hwritten =>
    exact .accepted handle (congrArg Said.before hsaid) hknown (by simp) (htold.of_accepted hpre).1

/-- Once everything has arrived, a stream that has nothing to read was read to its end. -/
theorem Sound.received_all [FramedPoll] [Leb128] [ReadsOn] (h : Sound token ops s frames)
    (harrived : s.arrived = s.client.written.length) {r : Routed} (hr : s.routed = some r)
    (hread : r.2.pollMsg.1 = .ok .notReady) : s.received = s.said.after := by
  have hstage := h.stage
  rw [hr, harrived, List.drop_length] at hstage
  obtain ⟨-, -, -, rest, hsaid, hup, -⟩ := hstage.routed_cases
  have hfits (bytes : Bytes) (hbytes : bytes ∈ packets rest) : Fits bytes := by
    refine (h.sized.upstream bytes ?_).fits
    rw [hsaid]
    exact mem_upstream s.received hbytes
  obtain ⟨data, rest', t', -, hpoll, -⟩ | ⟨t', -, -, -, hall⟩ := pollMsg_spec hfits hup
  · rw [hpoll] at hread
    cases hread
  · rw [hsaid, hall rfl, List.append_nil]
    rfl

/-- Once everything was delivered, the client has heard the whole answer. -/
theorem Sound.heard_all [Leb128] (h : Sound token ops s frames)
    (hdelivered : s.delivered = s.answer.length) :
    (s.routed.isSome → s.client.dispatched = welcomed s.served) ∧
      (∀ dropped, s.handler.state = .done (some dropped) →
        s.client.dispatched = [.error invalidToken]) := by
  have hpushed : s.client.reader.pushed = frames := by
    refine h.read.all Framed.encoded_ne_nil ?_
    rw [hdelivered, h.stage.answer_eq, List.take_length]
    exact le_rfl
  have htold := h.told
  rw [hpushed] at htold
  have hstage := h.stage
  refine ⟨fun hsome => ?_, fun dropped hdone => ?_⟩
  · obtain ⟨r, hr⟩ := Option.isSome_iff_exists.mp hsome
    rw [hr] at hstage
    obtain ⟨-, rfl, -⟩ := hstage.routed_cases
    exact (htold.of_accepted List.prefix_rfl).2 rfl
  · obtain ⟨client, ⟨state⟩, routed, arrived, delivered, said, received, served⟩ := s
    obtain rfl : state = .done (some dropped) := hdone
    cases hstage
    exact (htold.of_refused List.prefix_rfl).2 rfl

variable [FramedPoll] [SendPoll] [Writer] [Leb128] [BufferReader] [ReadsOn] [SendsOn] [Ldelim]
  [Uint32]

/-- Whatever arrives when, in whatever pieces: a client that sends nothing before its socket has
connected is let in if the routing table knows its token, to the handler that the table names,
and told so otherwise. The server receives what it sent, from the first message on, also what came
with the request, and the client hears what was served. A client that sends something earlier is
turned away, as its first message is taken for the request, and nothing of it is received. -/
theorem run_agrees (token : Bytes) (ops : List Op) (hsized : Sized token (.connecting []) [])
    (hops : ∀ op ∈ ops, op.Sized)
    (hstrange : ∀ data ∈ (saidBy ops).before.head?, Strange ops data) :
    Safe (Stops ops)
      (fun s =>
        s.said = saidBy ops ∧ s.received <+: s.said.after ∧ Verdict token ops s ∧
        (∀ r, s.routed = some r → s.arrived = s.client.written.length →
          r.2.pollMsg.1 = .ok .notReady → s.received = s.said.after) ∧
        (s.delivered = s.answer.length →
          (s.routed.isSome → s.client.dispatched = welcomed s.served) ∧
          (∀ dropped, s.handler.state = .done (some dropped) →
            s.client.dispatched = [.error invalidToken])))
      (run token ops) := by
  have hrun : Safe (Stops ops)
      (fun s => s.said = saidBy ops ∧ ∃ frames, Sound token ops s frames) (run token ops) := by
    refine Safe.foldlM_prefix
      (I := fun done s => s.said = saidBy done ∧ ∃ frames, Sound token ops s frames)
      ⟨rfl, [], Sound.new token ops hsized⟩ ?_
    rintro done op rest rfl s ⟨hsaid, frames, hsound⟩
    have hbefore : s.said.before <+: (saidBy (done ++ op :: rest)).before :=
      hsaid ▸ before_saidBy done (op :: rest)
    have hstep := hsound.step_safe hbefore hstrange (by simp : op ∈ done ++ op :: rest)
      (hops op (by simp))
    cases hs : s.step op with
    | error e => exact hstep.of_error hs
    | ok s' =>
      refine ⟨?_, hstep.of_ok hs⟩
      rw [said_step hs, hsaid, saidBy_concat]
  refine hrun.weaken ?_
  rintro s ⟨hsaid, frames, hsound⟩
  exact ⟨hsaid, hsound.received_le, hsound.verdict,
    fun r hr harrived hread => hsound.received_all harrived hr hread, hsound.heard_all⟩

end Agreement

/-- The client does not wait for the answer, and the request comes with the first message. -/
def skirmishOps : List Op :=
  [.connected, .send [1, 2], .arrive 5,
    .poll ⟨.ready, .ok .notReady, RoutingTable.new.register [7] ⟨3⟩, true⟩, .arrive 100,
    .poll ⟨.ready, .ok (.ready ()), .new, true⟩, .read, .serve ⟨some (.message [9])⟩, .deliver 4,
    .deliver 100]

/-- The client does not even wait for its socket. -/
def rashOps : List Op :=
  [.send [1, 2], .connected, .arrive 100,
    .poll ⟨.ready, .ok (.ready ()), RoutingTable.new.register [7] ⟨3⟩, true⟩, .read, .deliver 100]

theorem run_agrees_skirmish :
    letI := varintSlices
    letI := framedFeed
    letI := sendDeliver
    letI := writerFork
    letI := coreWire
    letI := handshakeWire
    letI := packetWire
    letI := readerUnrolled
    ∃ s t, run [7] skirmishOps = .ok s ∧ run [7] rashOps = .ok t ∧
      s.received = s.said.after ∧ s.client.dispatched = [.connect, .message [9]] ∧
      t.received = [] ∧ t.client.dispatched = [.error invalidToken] ∧
      Verdict [7] skirmishOps s ∧ Verdict [7] rashOps t := by
  let := varintSlices
  let := framedFeed
  let := sendDeliver
  let := writerFork
  let := coreWire
  let := handshakeWire
  let := packetWire
  let := readerUnrolled
  have := leb128_varintSlices
  have := readsOn_framedFeed
  have := sendsOn_sendDeliver
  have := ldelim_writerFork
  have := interoperates_wire
  have := uint32_readerUnrolled
  have hshort {bytes : Bytes} (h : bytes.length < 100) : Short bytes := h.trans (by decide)
  have hsized : Sized [7] (.connecting []) [] :=
    ⟨hshort (by decide), by simp [upstream, packets], by simp, hshort (by decide), hshort (by decide)⟩
  have hagrees := run_agrees [7] skirmishOps hsized
    (by
      simp only [skirmishOps, List.forall_mem_cons]
      exact ⟨trivial, hshort (by decide), trivial, trivial, trivial, trivial, trivial,
        hshort (by decide), trivial, trivial, by simp⟩)
    (by
      intro data hdata
      cases hdata)
  have hrashed := run_agrees [7] rashOps hsized
    (by
      simp only [rashOps, List.forall_mem_cons]
      exact ⟨hshort (by decide), trivial, trivial, trivial, trivial, trivial, by simp⟩)
    (by
      rintro data hdata request hrequest env henv
      obtain rfl : [1, 2] = data := Option.some.inj hdata
      obtain rfl : (⟨[10, 2, 1, 2]⟩ : Proto.ConnectionRequest) = request := Except.ok.inj hrequest
      simp only [rashOps, List.mem_cons, reduceCtorEq, Op.poll.injEq, List.not_mem_nil, or_false,
        false_or] at henv
      subst henv
      decide +kernel)
  have hends : ((run [7] skirmishOps).toOption.map fun s => (s.received, s.client.dispatched)) =
      some ([[1, 2]], [.connect, .message [9]]) := by
    decide +kernel
  have hrash : ((run [7] rashOps).toOption.map fun s => (s.received, s.client.dispatched)) =
      some ([], [.error invalidToken]) := by
    decide +kernel
  cases hrun : run [7] skirmishOps with
  | error e =>
    rw [hrun] at hends
    cases hends
  | ok s =>
    cases hrun' : run [7] rashOps with
    | error e =>
      rw [hrun'] at hrash
      cases hrash
    | ok t =>
      rw [hrun] at hends
      rw [hrun'] at hrash
      obtain ⟨hreceived, hdispatched⟩ := Prod.mk.inj (Option.some.inj hends)
      obtain ⟨hreceived', hdispatched'⟩ := Prod.mk.inj (Option.some.inj hrash)
      obtain ⟨hsaid, -, hverdict, -⟩ := hagrees.of_ok hrun
      obtain ⟨-, -, hverdict', -⟩ := hrashed.of_ok hrun'
      refine ⟨s, t, rfl, rfl, ?_, hdispatched, hreceived', hdispatched', hverdict, hverdict'⟩
      rw [hreceived, hsaid]
      rfl

end Mozaic.MozaicClient.Handshake
