/-
Exchanges, queues and bindings: `declareTopology`, and who declares what.

Six parties talk to the broker, three in each service, and nothing orders their
first connections. A message that is published while no queue is bound to its
routing key is confirmed by the broker and gone, so it matters that a publisher
declares the queue it publishes to before it has a channel to publish on, and that
the two ends of a queue declare the same one. Declarations add to what is there and
take nothing away; what any party can have added is known from the table of
topologies.
-/
import ReleaseNotifier.Conc.RelyGuarantee
import ReleaseNotifier.Handshake
import ReleaseNotifier.Publisher
import ReleaseNotifier.Ports
import ReleaseNotifier.Sent
import Mathlib.Data.List.Perm.Basic
import Mathlib.Data.List.Nodup

set_option autoImplicit false

namespace ReleaseNotifier.Messaging

open Conc
open Publisher (Topology)

/-! ## The broker's tables -/

/-- A binding of a direct exchange: messages with this key go to this queue. -/
structure Binding where
  exchange : String
  key : String
  queue : String
  deriving DecidableEq, Repr

/-- What the broker routes by. All of it is durable. -/
structure Routing where
  exchanges : List String
  queues : List String
  bindings : List Binding
  deriving DecidableEq, Repr

/-- A broker nobody has connected to. -/
def Routing.init : Routing := ⟨[], [], []⟩

/-- The queues a message gets to; a queue gets it once, however often it is bound. -/
def Routing.route (s : Routing) (exchange key : String) : List String :=
  s.queues.filter (fun queue => decide (⟨exchange, key, queue⟩ ∈ s.bindings))

inductive DeclareOp
  | exchangeDeclare (exchange : String)
  | queueDeclare (queue : String)
  | queueBind (queue key exchange : String)
  deriving DecidableEq

abbrev DeclareOp.Res : DeclareOp → Type := fun _ => Except Err Unit

/-- The broker's answer to a binding of what is not there. -/
def errNotFound (queue exchange : String) : Err :=
  .text s!"Exception (404) Reason: \"NOT_FOUND - no queue '{queue}' or no exchange '{exchange}'\""

/-- The tables with what is declared; declaring what is there changes nothing. -/
def Routing.add (s : Routing) : DeclareOp → Routing
  | .exchangeDeclare exchange => { s with exchanges := s.exchanges.insert exchange }
  | .queueDeclare queue => { s with queues := s.queues.insert queue }
  | .queueBind queue key exchange =>
    { s with bindings := s.bindings.insert ⟨exchange, key, queue⟩ }

/-- Why the broker refuses a declaration. -/
def Routing.refuses (s : Routing) : DeclareOp → Option Err
  | .queueBind queue _ exchange =>
    if exchange ∈ s.exchanges ∧ queue ∈ s.queues then none else some (errNotFound queue exchange)
  | _ => none

/-- One declaration. -/
def Routing.exec (s : Routing) (o : DeclareOp) : Choice → Option (o.Res × Routing) :=
  attempt s (match s.refuses o with
    | some err => .error err
    | none => .ok ((), s.add o))

abbrev Declaring := Prog DeclareOp DeclareOp.Res

def declare (o : DeclareOp) : Declaring (Except Err Unit) := Prog.perform o

/-- The loop over the routing keys in `declareTopology`. -/
def bindQueue (topology : Topology) : List String → Declaring (Option Err)
  | [] => return none
  | key :: keys => do
    match ← declare (.queueBind topology.queue key topology.exchange) with
    | .error err =>
      return some (.wrap s!"messaging: bind queue {topology.queue} to {key}" err)
    | .ok () => bindQueue topology keys

/-- `declareTopology`. -/
def declareTopology (topology : Topology) : Declaring (Option Err) := do
  match ← declare (.exchangeDeclare topology.exchange) with
  | .error err => return some (.wrap s!"messaging: declare exchange {topology.exchange}" err)
  | .ok () =>
    if topology.queue = "" then return none
    else
      match ← declare (.queueDeclare topology.queue) with
      | .error err => return some (.wrap s!"messaging: declare queue {topology.queue}" err)
      | .ok () => bindQueue topology topology.routingKeys

/-! ### The publisher runs this program

In the model of the publisher the same function runs on a channel, under the mutex,
and the broker's tables are not seen. -/

/-- A declaration on a channel. -/
def onChannel (ch : Nat) : (o : DeclareOp) → Publisher.Locked (DeclareOp.Res o)
  | .exchangeDeclare exchange => Publisher.locked (.exchangeDeclare ch exchange)
  | .queueDeclare queue => Publisher.locked (.queueDeclare ch queue)
  | .queueBind queue key exchange => Publisher.locked (.queueBind ch queue key exchange)

theorem interpret_bindQueue (ch : Nat) (topology : Topology) (keys : List String) :
    (bindQueue topology keys).interpret (onChannel ch) = Publisher.bindQueue ch topology keys := by
  induction keys with
  | nil => rfl
  | cons key keys ih =>
    show Prog.op _ _ = Prog.op _ _
    refine congrArg _ (funext fun r => ?_)
    cases r with
    | error err => rfl
    | ok u => exact ih

/-- What is declared here is what the publisher declares on its channel. -/
theorem interpret_declareTopology (ch : Nat) (topology : Topology) :
    (declareTopology topology).interpret (onChannel ch) =
      Publisher.declareTopology ch topology := by
  show Prog.op _ _ = Prog.op _ _
  refine congrArg _ (funext fun r => ?_)
  cases r with
  | error err => rfl
  | ok u =>
    change Prog.interpret (onChannel ch) (ite _ _ _) = ite _ _ _
    split
    · rfl
    · show Prog.op _ _ = Prog.op _ _
      refine congrArg _ (funext fun r => ?_)
      cases r with
      | error err => rfl
      | ok u => exact interpret_bindQueue ch topology _

/-! ## The parties -/

/-- Who declares a topology on connecting. -/
inductive Party
  /-- `buildNotificationPublisher`, of the monolith -/
  | notificationPublisher
  /-- `buildSagaOrchestrator` -/
  | sagaCommandPublisher
  /-- `runSagaReplyConsumer` -/
  | sagaReplyConsumer
  /-- `runConsumer`, of the notifier -/
  | emailConsumer
  /-- `runSagaConsumer` -/
  | sagaCommandConsumer
  /-- the reply publisher of the notifier's `buildDependencies` -/
  | sagaReplyPublisher
  deriving DecidableEq, Repr

/-- `notifyevent.RoutingKeys`. -/
def routingKeys : List String := [typeConfirmation, typeRelease]

/-- `sagaevent.CommandRoutingKeys`. -/
def commandRoutingKeys : List String := [cmdSendConfirmation]

/-- `sagaevent.ReplyRoutingKeys`. -/
def replyRoutingKeys : List String := [replyConfirmationSent, replyConfirmationFailed]

/-- The topology each of them is configured with. -/
def Party.topology : Party → Topology
  | .notificationPublisher => ⟨"notifications", "notifications.email", routingKeys⟩
  | .sagaCommandPublisher => ⟨"saga", "saga.commands", commandRoutingKeys⟩
  | .sagaReplyConsumer => ⟨"saga", "saga.replies", replyRoutingKeys⟩
  | .emailConsumer => ⟨"notifications", "notifications.email", routingKeys⟩
  | .sagaCommandConsumer => ⟨"saga", "saga.commands", commandRoutingKeys⟩
  | .sagaReplyPublisher => ⟨"saga", "saga.replies", replyRoutingKeys⟩

/-- Who reads what a party publishes. -/
def Party.reader? : Party → Option Party
  | .notificationPublisher => some .emailConsumer
  | .sagaCommandPublisher => some .sagaCommandConsumer
  | .sagaReplyPublisher => some .sagaReplyConsumer
  | _ => none

/-- What a party may ever publish, and under which key. -/
def Party.Publishes (D : Deps) (E : Notifier.Deps) (key : String) (body : Bytes) : Party → Prop
  | .notificationPublisher =>
    (∃ ctx ctx' email confirmURL repo,
      (Ports.Publisher.sendConfirmation D.json ctx email confirmURL repo).Issues
        (.within ctx' (.publish key body))) ∨
    ∃ ctx ctx' email repo rel,
      (Ports.Publisher.sendReleaseNotification D.json ctx email repo rel).Issues
        (.within ctx' (.publish key body))
  | .sagaCommandPublisher => ∃ c, (program D c).Issues (.publish key body)
  | .sagaReplyPublisher => ∃ c, (Notifier.program E c).Issues (.publish key body)
  | _ => False

/-- The parties connect in any order, any number of times. -/
def connecting : Machine DeclareOp DeclareOp.Res Routing Choice Party Empty (Option Err) where
  program p := declareTopology p.topology
  enter _ s := some s
  exec := Routing.exec
  env e := nomatch e

abbrev Connecting := Pool DeclareOp DeclareOp.Res Routing Party (Option Err)

/-- Nobody has connected. -/
def unconnected : Connecting := ⟨.init, []⟩

/-! ## What a declaration adds -/

/-- Nothing is taken away. -/
structure Extends (s s' : Routing) : Prop where
  exchanges : ∀ x ∈ s.exchanges, x ∈ s'.exchanges
  queues : ∀ x ∈ s.queues, x ∈ s'.queues
  bindings : ∀ x ∈ s.bindings, x ∈ s'.bindings

theorem Extends.refl (s : Routing) : Extends s s := ⟨fun _ h => h, fun _ h => h, fun _ h => h⟩

variable {s s' : Routing} {r : Except Err Unit}

/-- A declaration takes effect, with or without an error, or does nothing. -/
theorem exec_cases {o : DeclareOp} {ch : Choice} (h : s.exec o ch = some (r, s')) :
    (s' = s ∧ r ≠ .ok ()) ∨ (s' = s.add o ∧ s.refuses o = none) := by
  rcases attempt_cases h with ⟨e, rfl, rfl, _⟩ | ⟨a, ha, _⟩
  · exact .inl ⟨rfl, by simp⟩
  · cases hr : s.refuses o with
    | some err => rw [hr] at ha; cases ha
    | none =>
      rw [hr] at ha
      cases ha
      exact .inr ⟨rfl, rfl⟩

/-- Declarations only add: the broker forgets no queue and no binding. -/
theorem add_extends (s : Routing) (o : DeclareOp) : Extends s (s.add o) := by
  cases o with
  | exchangeDeclare exchange =>
    exact ⟨fun x hx => List.mem_insert_of_mem hx, fun _ h => h, fun _ h => h⟩
  | queueDeclare queue =>
    exact ⟨fun _ h => h, fun x hx => List.mem_insert_of_mem hx, fun _ h => h⟩
  | queueBind queue key exchange =>
    exact ⟨fun _ h => h, fun _ h => h, fun x hx => List.mem_insert_of_mem hx⟩

theorem exec_extends {o : DeclareOp} {ch : Choice} (h : s.exec o ch = some (r, s')) :
    Extends s s' := by
  rcases exec_cases h with ⟨rfl, _⟩ | ⟨rfl, _⟩
  · exact .refl _
  · exact add_extends s o

/-- A binding is not refused only if its queue is there. -/
theorem queue_of_accepted {s : Routing} {queue key exchange : String}
    (h : s.refuses (.queueBind queue key exchange) = none) : queue ∈ s.queues := by
  by_contra hno
  simp [Routing.refuses, hno] at h

/-! ## What is there is what the parties declare -/

/-- A declaration of this topology. -/
def Belongs (topology : Topology) : DeclareOp → Prop
  | .exchangeDeclare exchange => exchange = topology.exchange
  | .queueDeclare queue => queue = topology.queue
  | .queueBind queue key exchange =>
    queue = topology.queue ∧ key ∈ topology.routingKeys ∧ exchange = topology.exchange

/-- Every binding is one of some party's, to a queue that is there. -/
structure Wired (s : Routing) : Prop where
  nodup : s.queues.Nodup
  present : ∀ b ∈ s.bindings, b.queue ∈ s.queues
  owned : ∀ b ∈ s.bindings, ∃ p : Party, b.exchange = p.topology.exchange ∧
    b.key ∈ p.topology.routingKeys ∧ b.queue = p.topology.queue

def Declared (_ : Party) (o : DeclareOp) (r : Except Err Unit) (s s' : Routing) : Prop :=
  ∃ ch, s.exec o ch = some (r, s')

def wiring : Contract DeclareOp DeclareOp.Res Routing Party where
  inv := Wired
  rely _ _ := Extends
  guar p o _ _ _ := Belongs p.topology o

/-- A party that declares its own topology leaves everybody else's wiring as it was. -/
theorem Wired.step {p : Party} {o : DeclareOp} (h : Wired s) (ho : Belongs p.topology o)
    (hx : Declared p o r s s') : Wired s' := by
  obtain ⟨ch, hx⟩ := hx
  rcases exec_cases hx with ⟨rfl, _⟩ | ⟨rfl, haccepted⟩
  · exact h
  · cases o with
    | exchangeDeclare exchange => exact ⟨h.nodup, h.present, h.owned⟩
    | queueDeclare queue =>
      exact ⟨h.nodup.insert, fun b hb => List.mem_insert_of_mem (h.present b hb), h.owned⟩
    | queueBind queue key exchange =>
      refine ⟨h.nodup, fun b hb => ?_, fun b hb => ?_⟩
      · rcases List.mem_insert_iff.mp hb with rfl | hb
        · exact queue_of_accepted (s := s) haccepted
        · exact h.present b hb
      · rcases List.mem_insert_iff.mp hb with rfl | hb
        · exact ⟨p, ho.2.2, ho.2.1, ho.1⟩
        · exact h.owned b hb

theorem wiring_annotates : Annotates Declared wiring (fun p _ o => Belongs p.topology o) where
  keeps := fun hinv ho hx => ⟨Wired.step hinv ho hx, ho⟩
  stable := fun _ _ ho _ => ho

/-- The bindings for these keys are there. -/
def Bound (topology : Topology) (keys : List String) (s : Routing) : Prop :=
  ∀ key ∈ keys, (⟨topology.exchange, key, topology.queue⟩ : Binding) ∈ s.bindings

/-- A binding stays once it is there. -/
theorem Bound.extends {topology : Topology} {keys : List String} (h : Bound topology keys s)
    (he : Extends s s') : Bound topology keys s' :=
  fun key hkey => he.bindings _ (h key hkey)

section Programs

variable {p : Party} {s : Routing}

/-- Nothing is to be remembered before a declaration. -/
theorem declare_safe {α : Type} {post : α → Routing → Prop} {o : DeclareOp}
    {k : Except Err Unit → Declaring α} (ho : Belongs p.topology o)
    (hstep : ∀ r s s', Declared p o r s s' → Safe Declared wiring p post (k r) s') :
    Safe Declared wiring p post (.op o k) s :=
  wiring_annotates.op (fun _ => True) (fun _ _ _ _ => trivial) ho trivial
    (fun a r b _ _ hx => hstep r a b hx)

/-- Without an error every key of the list is bound. -/
theorem bindQueue_safe (keys : List String) (hkeys : ∀ key ∈ keys, key ∈ p.topology.routingKeys) :
    Safe Declared wiring p (fun err s => err = none → Bound p.topology keys s)
      (bindQueue p.topology keys) s := by
  induction keys generalizing s with
  | nil => exact Safe.ret (fun _ key hkey => by cases hkey)
  | cons key keys ih =>
    have hown := hkeys key List.mem_cons_self
    refine declare_safe ⟨rfl, hown, rfl⟩ (fun r a b hx => ?_)
    cases r with
    | error err => exact Safe.ret (fun h => by cases h)
    | ok u =>
      have hbound : Bound p.topology [key] b := by
        intro k hk
        obtain ⟨ch, hx⟩ := hx
        rcases exec_cases hx with ⟨_, hne⟩ | ⟨rfl, _⟩
        · exact absurd rfl hne
        · rw [List.mem_singleton.mp hk]
          exact List.mem_insert_self
      -- the binding stays while the other keys are bound
      refine ((ih (fun k hk => hkeys k (List.mem_cons_of_mem _ hk))).frame hbound
        (fun _ _ _ _ _ hb he => hb.extends he)
        (fun _ _ _ _ _ hb hx => hb.extends (exec_extends hx.choose_spec))).mono ?_
      rintro err s ⟨hrest, hfirst⟩ herr k hk
      rcases List.mem_cons.mp hk with rfl | hk
      · exact hfirst k List.mem_cons_self
      · exact hrest herr k hk

/-- A queue without a name would be given one by the broker; the consumers name theirs. -/
theorem declareTopology_safe (hqueue : p.topology.queue ≠ "") :
    Safe Declared wiring p (fun err s => err = none → Bound p.topology p.topology.routingKeys s)
      (declareTopology p.topology) s := by
  refine declare_safe rfl (fun r a b _ => ?_)
  cases r with
  | error err => exact Safe.ret (fun h => by cases h)
  | ok u =>
    change Safe _ _ _ _ (ite _ _ _) _
    rw [if_neg hqueue]
    refine declare_safe rfl (fun r a b _ => ?_)
    cases r with
    | error err => exact Safe.ret (fun h => by cases h)
    | ok u => exact bindQueue_safe _ (fun _ hkey => hkey)

end Programs

/-- A party that has connected finds its keys bound, from then on. -/
def ConnectedPost (p : Party) (err : Option Err) (s : Routing) : Prop :=
  err = none → Bound p.topology p.topology.routingKeys s

/-- The parties connect in any order and at the same time. -/
theorem connecting_respects :
    Respects connecting (fun _ _ => True) Declared wiring ConnectedPost ConnectedPost := by
  have hstands : ∀ {th : Thread DeclareOp DeclareOp.Res Party (Option Err)} {s s' : Routing},
      Extends s s' → Stands wiring ConnectedPost th s s' :=
    fun he => ⟨fun _ _ => he, fun _ _ h herr => (h herr).extends he⟩
  refine ⟨fun _ _ _ _ h => h, ?_, ?_, ?_, ?_⟩
  · intro q p s _ hq hent
    cases hent
    have hqueue : p.topology.queue ≠ "" := by cases p <;> decide
    exact ⟨hq.1, declareTopology_safe hqueue, fun _ _ _ => hstands (.refl _)⟩
  · intro q i ch th o k r s _ _ _ _ _ hx
    exact ⟨ch, hx⟩
  · intro q i ch th o k r s _ _ _ _ _ hx _ _ j th' _ _
    exact hstands (exec_extends hx)
  · intro q e
    exact nomatch e

theorem connecting_safe {es : List (Event Choice Party Empty)} {q : Connecting}
    (h : connecting.Run (fun _ _ => True) unconnected es q) :
    PoolSafe Declared wiring ConnectedPost ConnectedPost q := by
  have hinit : PoolSafe Declared wiring ConnectedPost ConnectedPost unconnected := by
    refine ⟨⟨List.nodup_nil, ?_, ?_⟩, fun i th hth => by simp [unconnected] at hth⟩
    · intro b hb
      cases hb
    · intro b hb
      cases hb
  exact hinit.run connecting_respects h

/-! ## Where a message gets to -/

/-- Exchange and key say which queue is meant, whoever declared it. -/
theorem queue_of_key (p p' : Party) (h : p.topology.exchange = p'.topology.exchange)
    (key : String) (hk : key ∈ p.topology.routingKeys) (hk' : key ∈ p'.topology.routingKeys) :
    p.topology.queue = p'.topology.queue := by
  have htable : ∀ p p' : Party, p.topology.exchange = p'.topology.exchange →
      (p.topology.routingKeys.any (fun k => decide (k ∈ p'.topology.routingKeys))) = true →
      p.topology.queue = p'.topology.queue := by
    intro p p'
    cases p <;> cases p' <;> decide
  exact htable p p' h (List.any_eq_true.mpr ⟨key, hk, decide_eq_true hk'⟩)

theorem eq_singleton_of_nodup {α : Type} {l : List α} {a : α} (h : l.Nodup)
    (hmem : ∀ x, x ∈ l ↔ x = a) : l = [a] :=
  List.perm_singleton.mp ((List.perm_ext_iff_of_nodup h (List.nodup_singleton a)).mpr
    (fun x => by rw [hmem, List.mem_singleton]))

/-- Once bound, a key leads to its queue and nowhere else. -/
theorem route_of_bound {s : Routing} (h : Wired s) {p : Party}
    (hb : Bound p.topology p.topology.routingKeys s) {key : String}
    (hkey : key ∈ p.topology.routingKeys) :
    s.route p.topology.exchange key = [p.topology.queue] := by
  refine eq_singleton_of_nodup (h.nodup.filter _) (fun queue => ?_)
  rw [Routing.route, List.mem_filter, decide_eq_true_iff]
  constructor
  · rintro ⟨_, hmem⟩
    obtain ⟨p', hexchange, hkey', hqueue⟩ := h.owned _ hmem
    exact hqueue.trans (queue_of_key p p' hexchange key hkey hkey').symm
  · rintro rfl
    exact ⟨h.present _ (hb key hkey), hb key hkey⟩

/-! ## Which keys are published -/

section Keys

variable {D : Deps} {E : Notifier.Deps}

/-- The monolith's operations, with publishing restricted to the command's key. -/
def Op.commandKeyed : Op → Prop
  | .publish key _ => key ∈ commandRoutingKeys
  | _ => True

/-- What stays away from the broker publishes under no key. -/
theorem keyed_of_plain {α : Type} {p : P α} (h : p.Uses Handshake.plain) :
    p.Uses Op.commandKeyed := by
  refine h.mono (fun o ho => ?_)
  cases o with
  | publish key body => exact absurd rfl ho.2
  | _ => trivial

theorem startAndWait_keyed (ctx : Context) (data : SubscriptionData) (x : String) :
    (startAndWait D ctx data x).Uses Op.commandKeyed := by
  refine Prog.Uses.bind (statement_uses trivial) (fun res => ?_)
  cases res with
  | some err => exact Prog.Uses.bind (cancel_uses trivial) (fun _ => trivial)
  | none =>
    refine Prog.Uses.bind ⟨trivial, fun _ => trivial⟩ (fun ch => ?_)
    exact Prog.Uses.bind (dispatchAndWait_uses (fun _ => List.mem_cons_self) trivial
        (keyed_of_plain (Handshake.compensate_plain x)))
      (fun _ => Prog.Uses.bind ⟨trivial, fun _ => trivial⟩ (fun _ => trivial))

/-- `Subscribe` publishes nothing but its command. -/
theorem subscribe_keyed (ctx : Context) (rawEmail rawRepo : String) (draws : Draws) :
    (subscribe D ctx rawEmail rawRepo draws).Uses Op.commandKeyed := by
  unfold subscribe
  split
  · trivial
  · next addr ref _ =>
    have hexists := keyed_of_plain (Handshake.ensureRepoExistsOnGitHub_plain ref)
    have hreserve := keyed_of_plain (Handshake.reserveSubscription_plain addr ref draws.token)
    refine Prog.Uses.bind hexists (fun res => ?_)
    cases res with
    | some err => trivial
    | none =>
      refine Prog.Uses.bind hreserve (fun res => ?_)
      cases res with
      | error err => trivial
      | ok sub =>
        refine Prog.Uses.bind (startAndWait_keyed ctx _ _) (fun res => ?_)
        cases res <;> trivial

/-- A reply's handler publishes nothing. -/
theorem handleReply_keyed (body : Bytes) : (handleReply D body).Uses Op.commandKeyed := by
  have hsignal : ∀ {x state}, (signalWaiter x state).Uses Op.commandKeyed :=
    signalWaiter_uses trivial (fun _ => trivial)
  unfold handleReply
  split
  · trivial
  · split
    · refine Prog.Uses.bind (statement_uses trivial) (fun res => ?_)
      cases res with
      | error err => trivial
      | ok transitioned =>
        cases transitioned with
        | false => trivial
        | true => exact Prog.Uses.bind hsignal (fun _ => trivial)
    · split
      · refine Prog.Uses.bind (keyed_of_plain (Handshake.compensate_plain _)) (fun res => ?_)
        cases res with
        | some err => trivial
        | none => exact Prog.Uses.bind hsignal (fun _ => trivial)
      · trivial

/-- The monolith publishes commands under the command's key. -/
theorem program_keyed (c : Call) : (program D c).Uses Op.commandKeyed := by
  cases c with
  | subscribe ctx rawEmail rawRepo draws =>
    exact Prog.Uses.bind (subscribe_keyed ctx rawEmail rawRepo draws) (fun _ => trivial)
  | confirm token =>
    exact Prog.Uses.bind (keyed_of_plain (Handshake.confirm_plain token)) (fun _ => trivial)
  | unsubscribe token =>
    exact Prog.Uses.bind (keyed_of_plain (Handshake.unsubscribe_plain token)) (fun _ => trivial)
  | handleReply body => exact Prog.Uses.bind (handleReply_keyed body) (fun _ => trivial)
  | reap => exact Prog.Uses.bind (keyed_of_plain Handshake.reap_plain) (fun _ => trivial)
  | startAndWait ctx data sagaID =>
    exact Prog.Uses.bind (startAndWait_keyed ctx data sagaID) (fun _ => trivial)

/-- The notifier's operations, with publishing restricted to the replies' keys. -/
def replyKeyed : Notifier.Op → Prop
  | .publish key _ => key ∈ replyRoutingKeys
  | _ => True

theorem reply_keyed (cmd : Command) {replyType : String} (h : replyType ∈ replyRoutingKeys)
    (reason : String) : (Notifier.Participant.reply E cmd replyType reason).Uses replyKeyed := by
  unfold Notifier.Participant.reply
  split
  · trivial
  · refine ⟨h, fun r => ?_⟩
    cases r <;> trivial

/-- What stays inside the notifier is published under no key. -/
theorem replyKeyed_of_internal {o : Notifier.Op} (h : o.internal = true) : replyKeyed o := by
  cases o with
  | publish key body => cases h
  | _ => trivial

theorem send_keyed (mail : Notifier.Mail) : (Notifier.Service.send E mail).Uses replyKeyed := by
  have hreserve : (Notifier.Store.reserve mail.kind (mail.dedupKey E)).Uses replyKeyed := by
    refine Prog.Uses.bind_except ⟨trivial, fun _ => trivial⟩ (fun _ => trivial) (fun _ => ?_)
    refine ⟨trivial, fun r => ?_⟩
    rcases r with err | _ | id <;> trivial
  have hconfirm : (Notifier.Store.confirm (mail.dedupKey E)).Uses replyKeyed := by
    refine Prog.Uses.bind_except ⟨trivial, fun _ => trivial⟩ (fun _ => trivial) (fun _ => ?_)
    refine ⟨trivial, fun r => ?_⟩
    cases r <;> trivial
  refine Prog.Uses.bind_except hreserve (fun _ => trivial) (fun reserved => ?_)
  cases reserved with
  | false => trivial
  | true =>
    refine Prog.Uses.bind_except ⟨trivial, fun _ => trivial⟩ (fun _ => trivial) (fun _ => ?_)
    exact Prog.Uses.bind hconfirm (fun _ => trivial)

/-- The participant answers every command under one of the replies' keys. -/
theorem participant_keyed (body : Bytes) :
    (Notifier.Participant.handle E body).Uses replyKeyed := by
  have hsent : replyConfirmationSent ∈ replyRoutingKeys := by decide
  have hfailed : replyConfirmationFailed ∈ replyRoutingKeys := by decide
  unfold Notifier.Participant.handle
  split
  · trivial
  · split
    · trivial
    · split
      · exact reply_keyed _ hfailed _
      · split
        · exact reply_keyed _ hfailed _
        · exact Prog.Uses.bind_except (send_keyed _) (fun _ => reply_keyed _ hfailed _)
            (fun _ => reply_keyed _ hsent _)

theorem consumer_keyed (body : Bytes) : (Notifier.Consumer.handle E body).Uses replyKeyed := by
  unfold Notifier.Consumer.handle
  split
  · trivial
  · split
    · unfold Notifier.Consumer.handleConfirmation
      split
      · trivial
      · split
        · trivial
        · exact Prog.Uses.bind_except (send_keyed _) (fun _ => trivial) (fun _ => trivial)
    · split
      · unfold Notifier.Consumer.handleRelease
        split
        · trivial
        · split
          · trivial
          · exact Prog.Uses.bind_except (send_keyed _) (fun _ => trivial) (fun _ => trivial)
      · trivial

/-- The notifier publishes replies under the replies' keys. -/
theorem notifier_keyed (c : Notifier.Call) : (Notifier.program E c).Uses replyKeyed := by
  cases c with
  | buildDependencies cfg =>
    exact Prog.Uses.bind ((Notifier.buildDependencies_uses cfg).mono
      (fun _ => replyKeyed_of_internal)) (fun _ => trivial)
  | consume body => exact Prog.Uses.bind (consumer_keyed body) (fun _ => trivial)
  | participate body => exact Prog.Uses.bind (participant_keyed body) (fun _ => trivial)
  | sendConfirmation confirmation => exact Prog.Uses.bind (send_keyed _) (fun _ => trivial)
  | sendReleaseNotification email repo rel => exact Prog.Uses.bind (send_keyed _) (fun _ => trivial)
  | close =>
    exact Prog.Uses.bind (Notifier.close_uses.mono (fun _ => replyKeyed_of_internal))
      (fun _ => trivial)

/-- What the monolith calls to reach the notifier, with publishing restricted to the
keys of the notification queue. -/
def notificationKeyed : Scoped Context Ports.Outlet → Prop
  | .within _ (.publish key _) => key ∈ routingKeys
  | _ => True

theorem publisher_keyed {type : String} (h : type ∈ routingKeys) (json : Json) (ctx : Context)
    (payload : Bytes) : (Ports.Publisher.publish json ctx type payload).Uses notificationKeyed := by
  unfold Ports.Publisher.publish
  split
  · trivial
  · refine ⟨h, fun r => ?_⟩
    cases r <;> trivial

/-- A party publishes under the keys it has declared. -/
theorem Party.Publishes.key_mem {p : Party} {key : String} {body : Bytes}
    (h : p.Publishes D E key body) : key ∈ p.topology.routingKeys := by
  cases p with
  | notificationPublisher =>
    rcases h with ⟨ctx, ctx', email, confirmURL, repo, h⟩ | ⟨ctx, ctx', email, repo, rel, h⟩
    · have huses : (Ports.Publisher.sendConfirmation D.json ctx email confirmURL repo).Uses
          notificationKeyed := by
        unfold Ports.Publisher.sendConfirmation
        split
        · trivial
        · exact publisher_keyed (by decide) _ _ _
      exact huses.issues h
    · have huses : (Ports.Publisher.sendReleaseNotification D.json ctx email repo rel).Uses
          notificationKeyed := by
        unfold Ports.Publisher.sendReleaseNotification
        split
        · trivial
        · exact publisher_keyed (by decide) _ _ _
      exact huses.issues h
  | sagaCommandPublisher =>
    obtain ⟨c, hc⟩ := h
    exact (program_keyed c).issues hc
  | sagaReplyPublisher =>
    obtain ⟨c, hc⟩ := h
    exact (notifier_keyed c).issues hc
  | _ => cases h

end Keys

/-! ## No message is unroutable -/

/-- Whatever the order in which the six parties connect, reconnect, fail half-way and
crash: a message that a publisher of either service may publish is never routed to a
queue other than its reader's, and once that publisher has connected, at any later
time, it is routed to exactly that queue. -/
theorem published_reaches_reader (D : Deps) (E : Notifier.Deps)
    (es : List (Event Choice Party Empty)) (q : Connecting)
    (h : connecting.Run (fun _ _ => True) unconnected es q) (p reader : Party)
    (hreader : p.reader? = some reader) (key : String) (body : Bytes)
    (hpub : p.Publishes D E key body) :
    (∀ queue ∈ q.state.route p.topology.exchange key, queue = reader.topology.queue) ∧
      ((∃ th ∈ q.threads, th.call = p ∧ th.prog = .ret none) →
        q.state.route p.topology.exchange key = [reader.topology.queue]) := by
  have hsafe := connecting_safe h
  have hkey := hpub.key_mem
  have hqueue : p.topology.queue = reader.topology.queue := by
    cases p <;> cases hreader <;> rfl
  refine ⟨fun queue hmem => ?_, ?_⟩
  · obtain ⟨p', hexchange, hkey', heq⟩ :=
      hsafe.1.owned _ (of_decide_eq_true (List.mem_filter.mp hmem).2)
    refine heq.trans (.trans ?_ hqueue)
    exact (queue_of_key p p' hexchange key hkey hkey').symm
  · rintro ⟨th, hth, rfl, hret⟩
    obtain ⟨i, hi⟩ := List.mem_iff_getElem?.mp hth
    rw [← hqueue]
    exact route_of_bound hsafe.1 ((hsafe.2 i th hi).2 none hret rfl) hkey

/-- The notifier has started half-way when the monolith connects. -/
theorem published_reaches_reader_sample :
    ∃ q : Connecting, connecting.Run (fun _ _ => True) unconnected
        ([.call .emailConsumer, .run 0 .ok, .run 0 .ok, .kill 0, .call .notificationPublisher] ++
          List.replicate 4 (.run 1 .ok)) q ∧
      q.state.route "notifications" typeConfirmation = ["notifications.email"] := by
  have hrun : (connecting.steps unconnected
      ([.call .emailConsumer, .run 0 .ok, .run 0 .ok, .kill 0, .call .notificationPublisher] ++
        List.replicate 4 (.run 1 .ok))).any (fun q => (q.threads[1]?).any (fun th =>
          decide (th.call = .notificationPublisher) &&
            decide (th.prog.result? = some none))) = true := by decide
  obtain ⟨q, hq, hany⟩ := (Option.any_eq_true _ _).mp hrun
  obtain ⟨th, hth, hprop⟩ := (Option.any_eq_true _ _).mp hany
  simp only [Bool.and_eq_true, decide_eq_true_eq, Prog.result?_eq_some] at hprop
  have hpub : Party.notificationPublisher.Publishes sample Notifier.sample typeConfirmation
      (sampleEnvelope typeConfirmation sampleConfirmation) := by
    refine .inl ⟨⟨none⟩, ⟨none⟩, "a@b.c", "https://h/api/confirm/t1", "o/n", ?_⟩
    have hpayload : sample.json.confirmation.marshal
        ⟨"a@b.c", "https://h/api/confirm/t1", "o/n"⟩ = .ok sampleConfirmation := by decide
    have hbody : sample.json.envelope.marshal ⟨typeConfirmation, "", sampleConfirmation⟩ =
        .ok (sampleEnvelope typeConfirmation sampleConfirmation) := by decide
    simp only [Ports.Publisher.sendConfirmation, hpayload, Ports.Publisher.publish,
      Option.getD_none, hbody]
    exact .inl rfl
  have hconnecting := Machine.Run.of_steps hq
  exact ⟨q, hconnecting, (published_reaches_reader sample Notifier.sample _ q hconnecting
    .notificationPublisher .emailConsumer rfl typeConfirmation _ hpub).2
      ⟨th, List.mem_of_getElem? hth, hprop.1, hprop.2⟩⟩

end ReleaseNotifier.Messaging
