import GameSidecar.Proofs.Handover
import GameSidecar.Proofs.Reading
import GameSidecar.Proofs.Writing

/-!
# The spelling of heartbeats

Games spell their heartbeats in different ways. A field has three names, and may be left out if its
value says nothing. The members of an object come in any order, and others of any values may stand
among them. As JSON the whole may be laid out in any way. All this is said here as a relation
between a heartbeat and the bytes that spell it. Whatever bytes these are, the heartbeat is read
back from them, and the sidecar does the same for all of them, from any state and whatever happens
later.
-/

namespace GameSidecar

namespace Text

/-- The list of some bytes holds what is stored. -/
theorem bytes_toList (bytes : ByteArray) : bytes.toList = bytes.data.toList := by
  have general (index : Nat) (read : List UInt8) :
      ByteArray.toList.loop bytes index read = read.reverse ++ bytes.data.toList.drop index := by
    fun_induction ByteArray.toList.loop bytes index read with
    | case1 index read inside inductionHypothesis =>
      have stored : bytes.get! index = bytes.data.toList[index] := by
        simp [ByteArray.get!, getElem!_pos bytes.data index inside]
      rw [inductionHypothesis, List.drop_eq_getElem_cons inside, stored]
      simp
    | case2 index read outside =>
      have ended : bytes.data.toList.drop index = [] :=
        List.drop_eq_nil_of_le (Nat.not_lt.mp outside)
      rw [ended, List.append_nil]
  exact general 0 []

/-- The bytes of a character stand among those of a text that has it. -/
theorem mem_toUTF8 {text : String} {character : Char} (member : character ∈ text.toList)
    {byte : UInt8} (single : byte ∈ String.utf8EncodeChar character) :
    byte ∈ text.toUTF8.toList := by
  rw [bytes_toList]
  change byte ∈ text.toByteArray.data.toList
  rw [← String.utf8Encode_toList, List.utf8Encode, List.toList_data_toByteArray]
  exact List.mem_flatMap.mpr ⟨character, member, single⟩

end Text

namespace Heartbeat.Request

section Meanings

/-- Members with one of the names of a field, or none if the field may be left out. -/
inductive Field (names : List String) (means : Option Json → Prop) : List (String × Json) → Prop
  | given {name : String} {value : Json} (known : name ∈ names) (meant : means (some value)) :
    Field names means [(name, value)]
  | missing (meant : means none) : Field names means []

/-- A state is given by its name. None is given as null or as the empty text, or is left out. -/
inductive MeansState : Option GameState → Option Json → Prop
  | named (state : GameState) : MeansState (some state) (some (.string state.name))
  | empty : MeansState none (some (.string ""))
  | null : MeansState none (some .null)
  | missing : MeansState none none

/-- A health is given as a text. The empty one may be null or be left out. -/
inductive MeansHealth : String → Option Json → Prop
  | text (health : String) : MeansHealth health (some (.string health))
  | null : MeansHealth "" (some .null)
  | missing : MeansHealth "" none

/-- The identity of a player is given as a text. The empty one may be left out. -/
inductive MeansIdentity : String → Option Json → Prop
  | text (player : String) : MeansIdentity player (some (.string player))
  | missing : MeansIdentity "" none

/-- A player is an object with its identity among other members. -/
inductive SpellsPlayer (player : String) : Json → Prop
  | object {identity others pairs : List (String × Json)}
      (given : Field playerNames (MeansIdentity player) identity)
      (unknown : ∀ pair ∈ others, pair.1 ∉ playerNames)
      (order : pairs.Perm (identity ++ others)) :
    SpellsPlayer player (.object (OrderedMap.ofPairs pairs))

/-- Players are given as an array. No players may be null or be left out. -/
inductive MeansPlayers : List String → Option Json → Prop
  | listed {players : List String} {items : List Json}
      (each : List.Forall₂ SpellsPlayer players items) :
    MeansPlayers players (some (.array items))
  | null : MeansPlayers [] (some .null)
  | missing : MeansPlayers [] none

/-- A heartbeat is an object with its three fields among other members. -/
inductive Spells (request : Request) : Json → Prop
  | object {state health players others pairs : List (String × Json)}
      (stateGiven : Field stateNames (MeansState request.state) state)
      (healthGiven : Field healthNames (MeansHealth request.health) health)
      (playersGiven : Field playersNames (MeansPlayers request.players) players)
      (unknown : ∀ pair ∈ others, pair.1 ∉ stateNames ++ healthNames ++ playersNames)
      (order : pairs.Perm (state ++ health ++ players ++ others)) :
    Spells request (.object (OrderedMap.ofPairs pairs))

/-- The bytes of a heartbeat: a document in UTF-8. -/
inductive Wire (request : Request) : ByteArray → Prop
  | document {value : Json} {text : String} (spells : request.Spells value)
      (document : Json.Document limits value text.toList) : Wire request text.toUTF8

end Meanings

section Fields

variable {members : List (String × Json)} {names : List String}

/-- Nothing is taken if all names of a field are missing. -/
theorem taken?_of_absent (absent : ∀ name ∈ names, OrderedMap.get? members name = none) :
    taken? members names = none := by
  induction names with
  | nil => rfl
  | cons name names inductionHypothesis =>
    obtain ⟨first, later⟩ := List.forall_mem_cons.mp absent
    simp [taken?, first, inductionHypothesis later]

/-- If an object has only one of some names, this one is taken wherever it stands. -/
theorem taken?_of_only {name : String} {value : Json} (known : name ∈ names)
    (only : ∀ asked ∈ names,
      OrderedMap.get? members asked = if name = asked then some value else none) :
    taken? members names = some (name, value) := by
  induction names with
  | nil => cases known
  | cons first names inductionHypothesis =>
    obtain ⟨here, later⟩ := List.forall_mem_cons.mp only
    by_cases same : name = first
    · simp [taken?, here, same]
    · have further : name ∈ names := (List.mem_cons.mp known).resolve_left same
      simp [taken?, here, same, inductionHypothesis further later]

/-- The members of a field do not get in the way of other names. -/
theorem Field.apart {means : Option Json → Prop} {field : List (String × Json)}
    {others : List String} (given : Field names means field)
    (disjoint : ∀ name ∈ names, name ∉ others) : ∀ pair ∈ field, pair.1 ∉ others := by
  cases given with
  | given known _ => exact List.forall_mem_singleton.mpr (disjoint _ known)
  | missing _ => exact List.forall_mem_nil _

/-- What is taken of an object is what its field means, whatever stands around it. -/
theorem Field.taken {means : Option Json → Prop} {field others pairs : List (String × Json)}
    (given : Field names means field) (unknown : ∀ pair ∈ others, pair.1 ∉ names)
    (order : pairs.Perm (field ++ others)) :
    means ((taken? (OrderedMap.ofPairs pairs) names).map Prod.snd) := by
  -- Only the field itself has one of its names, so its members are all that a search can find.
  have nowhere (asked : String) (known : asked ∈ names) :
      others.filter (fun pair => pair.1 = asked) = [] := by
    refine List.filter_eq_nil_iff.mpr fun pair member same => ?_
    exact unknown pair member (of_decide_eq_true same ▸ known)
  have found (asked : String) (known : asked ∈ names) :
      (pairs.filter fun pair => pair.1 = asked).Perm
        (field.filter fun pair => pair.1 = asked) := by
    have filtered := order.filter fun pair => pair.1 = asked
    rwa [List.filter_append, nowhere asked known, List.append_nil] at filtered
  cases given with
  | missing meant =>
    have absent : ∀ name ∈ names, OrderedMap.get? (OrderedMap.ofPairs pairs) name = none := by
      intro name known
      rw [OrderedMap.get?_ofPairs, (found name known).eq_nil]
      rfl
    rw [taken?_of_absent absent]
    exact meant
  | @given name value known meant =>
    have only : ∀ asked ∈ names, OrderedMap.get? (OrderedMap.ofPairs pairs) asked =
        if name = asked then some value else none := by
      intro asked asks
      have here := found asked asks
      rw [OrderedMap.get?_ofPairs]
      by_cases same : name = asked
      · simp only [same, List.filter_cons, decide_true, if_true, List.filter_nil] at here
        simp [here.eq_singleton, same]
      · simp only [same, List.filter_cons, decide_false, Bool.false_eq_true, if_false,
          List.filter_nil] at here
        simp [here.eq_nil, same]
    rw [taken?_of_only known only]
    exact meant

/-- A state is read as it is meant. -/
theorem readState_of_means {state : Option GameState}
    (means : MeansState state ((taken? members stateNames).map Prod.snd)) :
    readState members = .fixed state := by
  unfold readState
  generalize taken? members stateNames = found at means
  rcases found with _ | ⟨name, value⟩
  · cases means
    rfl
  · cases means with
    | named state => cases state <;> rfl
    | empty => rfl
    | null => rfl

/-- A health is read as it is meant. -/
theorem readHealth_of_means {health : String}
    (means : MeansHealth health ((taken? members healthNames).map Prod.snd)) :
    readHealth members = .fixed health := by
  unfold readHealth
  generalize taken? members healthNames = found at means
  rcases found with _ | ⟨name, value⟩
  · cases means
    rfl
  · cases means with
    | text health => rfl
    | null => rfl

/-- A player is read from any spelling of it. -/
theorem readPlayer_of_spells {player : String} {value : Json} (spells : SpellsPlayer player value)
    (place : List Step) : readPlayer place value = .ok player := by
  obtain ⟨given, unknown, order⟩ := spells
  have means := given.taken unknown order
  simp only [readPlayer]
  generalize taken? _ playerNames = found at means
  rcases found with _ | ⟨name, value⟩
  · cases means
    rfl
  · cases means
    rfl

/-- Players are read one after the other from any spellings of them. -/
theorem readPlayersFrom_of_spells {players : List String} {items : List Json}
    (each : List.Forall₂ SpellsPlayer players items) (name : String) (index : Nat) :
    readPlayersFrom name index items = players.map .ok := by
  induction each generalizing index with
  | nil => rfl
  | cons spells _ inductionHypothesis =>
    rw [readPlayersFrom, readPlayer_of_spells spells, inductionHypothesis]
    rfl

/-- The list of players is read as it is meant. -/
theorem readPlayers_of_means {players : List String}
    (means : MeansPlayers players ((taken? members playersNames).map Prod.snd)) :
    readPlayers members = .fixed players := by
  unfold readPlayers
  generalize taken? members playersNames = found at means
  rcases found with _ | ⟨name, value⟩
  · cases means
    rfl
  · cases means with
    | listed each =>
      simp only [readPlayersFrom_of_spells each, Answer.all_ok]
      rfl
    | null => rfl

end Fields

variable {request : Request}

/-- A map is decoded field by field. -/
theorem ofJson_object (members : List (String × Json)) :
    ofJson (.object members) =
      (Request.mk <$> readState members <*> readHealth members <*> readPlayers members) := rfl

/-- A heartbeat is read back from any object that spells it. -/
theorem ofJson_of_spells {value : Json} (spells : request.Spells value) :
    ofJson value = Except.ok request := by
  cases spells with
  | @object state health players others pairs stateGiven healthGiven playersGiven unknown order =>
    have strange : ∀ pair ∈ others,
        pair.1 ∉ stateNames ∧ pair.1 ∉ healthNames ∧ pair.1 ∉ playersNames := by
      intro pair member
      simpa [and_assoc] using unknown pair member
    have besideState : ∀ pair ∈ health ++ players ++ others, pair.1 ∉ stateNames :=
      List.forall_mem_append.mpr ⟨List.forall_mem_append.mpr
        ⟨healthGiven.apart (by decide), playersGiven.apart (by decide)⟩,
        fun pair member => (strange pair member).1⟩
    have besideHealth : ∀ pair ∈ state ++ players ++ others, pair.1 ∉ healthNames :=
      List.forall_mem_append.mpr ⟨List.forall_mem_append.mpr
        ⟨stateGiven.apart (by decide), playersGiven.apart (by decide)⟩,
        fun pair member => (strange pair member).2.1⟩
    have besidePlayers : ∀ pair ∈ state ++ health ++ others, pair.1 ∉ playersNames :=
      List.forall_mem_append.mpr ⟨List.forall_mem_append.mpr
        ⟨stateGiven.apart (by decide), healthGiven.apart (by decide)⟩,
        fun pair member => (strange pair member).2.2⟩
    have stateFirst : pairs.Perm (state ++ (health ++ players ++ others)) := by
      simpa only [List.append_assoc] using order
    have healthFirst : pairs.Perm (health ++ (state ++ players ++ others)) := by
      refine order.trans ?_
      simpa only [List.append_assoc] using
        List.perm_append_comm_assoc state health (players ++ others)
    have playersFirst : pairs.Perm (players ++ (state ++ health ++ others)) := by
      refine order.trans ?_
      simpa only [List.append_assoc] using
        List.perm_append_comm_assoc (state ++ health) players others
    have stateMeant := stateGiven.taken besideState stateFirst
    have healthMeant := healthGiven.taken besideHealth healthFirst
    have playersMeant := playersGiven.taken besidePlayers playersFirst
    rw [ofJson_object, readState_of_means stateMeant, readHealth_of_means healthMeant,
      readPlayers_of_means playersMeant]
    rfl

section Bytes

/-- The document of an object has a curly bracket. -/
theorem bracket_mem {bounds : Json.Limits} {members : List (String × Json)} {text : List Char}
    (document : Json.Document bounds (.object members) text) : '\x7b' ∈ text := by
  obtain ⟨-, phrase, -⟩ := document
  cases phrase with
  | word word => cases word
  | emptyObject _ => simp
  | object _ => simp

/-- The bytes of a heartbeat are not blank. -/
theorem isBlank_wire {body : ByteArray} (wire : request.Wire body) : isBlank body = false := by
  obtain ⟨spells, document⟩ := wire
  cases spells with
  | object =>
    have stored := Text.mem_toUTF8 (bracket_mem document) (by decide : (0x7b : UInt8) ∈ _)
    exact List.all_eq_false.mpr ⟨0x7b, stored, by decide⟩

/-- A heartbeat is read back from its bytes. -/
theorem decode_wire {body : ByteArray} (wire : request.Wire body) :
    decode body = Except.ok request := by
  cases wire with
  | @document value text spells document =>
    have encoded : String.fromUTF8? text.toUTF8 = some text := by
      unfold String.fromUTF8?
      exact dif_pos text.isValidUTF8
    have read : readBytes? text.toUTF8 = some value := by
      rw [readBytes?, encoded, Option.bind_some]
      exact Json.read?_of_document document le_rfl le_rfl
    rw [decode, read]
    exact ofJson_of_spells spells

end Bytes

section Writing

/-- A heartbeat as an object, under the first of the names and with nothing else in it. -/
def toJson (request : Request) : Json :=
  .object [
    ("currentGameState", (request.state.map fun state => Json.string state.name).getD .null),
    ("currentGameHealth", .string request.health),
    ("currentPlayers",
      .array (request.players.map fun player => .object [("playerId", .string player)]))]

/-- The plain value of a request is one of its spellings. -/
theorem spells_toJson (request : Request) : request.Spells request.toJson := by
  have player (player : String) :
      SpellsPlayer player (.object [("playerId", .string player)]) :=
    .object (.given (by decide) (.text player)) (List.forall_mem_nil _) (.refl _)
  have state : MeansState request.state
      (some ((request.state.map fun state => Json.string state.name).getD .null)) := by
    cases request.state with
    | none => exact .null
    | some state => exact .named state
  have players : List.Forall₂ SpellsPlayer request.players
      (request.players.map fun player => .object [("playerId", .string player)]) := by
    rw [List.forall₂_map_right_iff, List.forall₂_same]
    exact fun name _ => player name
  have stateGiven : Field stateNames (MeansState request.state) [("currentGameState", _)] :=
    .given (by decide) state
  have healthGiven : Field healthNames (MeansHealth request.health) [("currentGameHealth", _)] :=
    .given (by decide) (.text request.health)
  have playersGiven : Field playersNames (MeansPlayers request.players) [("currentPlayers", _)] :=
    .given (by decide) (.listed players)
  exact .object stateGiven healthGiven playersGiven (List.forall_mem_nil _) (.refl _)

/-- Its plain text is one of the grammar. -/
theorem phrase_toJson (request : Request) :
    Json.Phrase limits request.toJson request.toJson.write := by
  refine Json.phrase_object (by simp [OrderedMap.keys]) ?_
  simp only [List.forall_mem_cons]
  refine ⟨?_, Json.phrase_string _ _, Json.phrase_array fun item member => ?_,
    List.forall_mem_nil _⟩
  · cases request.state with
    | none => exact .word .null
    | some state => exact Json.phrase_string _ _
  · obtain ⟨player, -, rfl⟩ := List.mem_map.mp member
    refine Json.phrase_object (by simp [OrderedMap.keys]) ?_
    simp only [List.forall_mem_cons]
    exact ⟨Json.phrase_string _ _, List.forall_mem_nil _⟩

/-- Every heartbeat can be put on the wire. -/
theorem wire_toJson (request : Request) : request.Wire request.toJson.document.toUTF8 :=
  .document (spells_toJson request) (Json.document_document (phrase_toJson request))

end Writing

end Heartbeat.Request

namespace Sidecar

open Heartbeat (Turn)

variable (plan : Watch.Plan) {left right : Sidecar}

/-- The part of a request that counts after its body has been read. -/
def heading (request : Endpoint.Request) : String × String :=
  (request.method, request.path)

/-- Two sidecars that differ only in the bodies and the queries of requests. -/
structure Alike (left right : Sidecar) : Prop where
  reconciler : left.reconciler = right.reconciler
  service : left.service = right.service
  requests : left.requests.map heading = right.requests.map heading

/-- Two moves are alike if they differ only in the bodies of a heartbeat, and these spell the same
    one. -/
inductive Move.Alike : Move → Move → Prop
  | same (move : Move) : Alike move move
  | heartbeat {request : Heartbeat.Request} {body other : ByteArray} (first : request.Wire body)
      (second : request.Wire other) (host : String) (post : Endpoint.Request) :
    Alike (.heartbeat host { post with body }) (.heartbeat host { post with body := other })

/-- Bodies of the same request are received as one and the same. -/
theorem receiveBody_congr {request : Heartbeat.Request} {body other : ByteArray}
    (first : request.Wire body) (second : request.Wire other) (host : String) :
    Endpoint.receiveBody host body = Endpoint.receiveBody host other := by
  simp only [Endpoint.receiveBody, Heartbeat.Request.isBlank_wire first,
    Heartbeat.Request.isBlank_wire second, Heartbeat.Request.decode_wire first,
    Heartbeat.Request.decode_wire second]

/-- Of the request of a heartbeat only the method and the path are looked at in the end. -/
theorem conclude_congr {request other : Endpoint.Request}
    (same : heading request = heading other) (session : Session)
    (result : Except Heartbeat.Failure Unit) :
    Endpoint.conclude request session result = Endpoint.conclude other session result := by
  obtain ⟨method, path⟩ := Prod.mk.inj same
  unfold Endpoint.conclude
  rw [method, path]

/-- Alike sidecars send the same patches. -/
theorem Alike.patch (alike : Alike left right) (turn : Turn) (aspect : Heartbeat.Aspect) :
    left.patch turn aspect = right.patch turn aspect := by
  simp only [Sidecar.patch, alike.reconciler]

/-- Alike sidecars do the same for an action of the service. -/
theorem Alike.serve (alike : Alike left right) (action : Heartbeat.Action) :
    left.serve action = right.serve action := by
  cases action with
  | log line => rfl
  | send turn aspect => simp only [Sidecar.serve, alike.patch]
  | finish turn result =>
    have same : (left.requests[turn.number]?).map heading =
        (right.requests[turn.number]?).map heading := by
      rw [← List.getElem?_map, alike.requests, List.getElem?_map]
    have stored : heading ((left.requests[turn.number]?).getD ⟨"", "", "", .empty⟩) =
        heading ((right.requests[turn.number]?).getD ⟨"", "", "", .empty⟩) := by
      rw [← Option.getD_map heading, ← Option.getD_map heading, same]
    simp only [Sidecar.serve, conclude_congr stored, alike.reconciler]

/-- Alike sidecars stay so when the service has gone on. -/
theorem Alike.adopt (alike : Alike left right)
    (served : Heartbeat.Service × List Heartbeat.Action) :
    (left.adopt served).2 = (right.adopt served).2 ∧
      Alike (left.adopt served).1 (right.adopt served).1 := by
  refine ⟨?_, alike.reconciler, rfl, alike.requests⟩
  simp only [Sidecar.adopt, funext alike.serve]

/-- Alike sidecars stay so when the reconciler makes a move. -/
theorem Alike.reconcile (alike : Alike left right) (move : Reconciler.Move) :
    (left.reconcile plan move).2 = (right.reconcile plan move).2 ∧
      Alike (left.reconcile plan move).1 (right.reconcile plan move).1 := by
  obtain ⟨reconciler, service, requests⟩ := alike
  simp only [Sidecar.reconcile, reconciler]
  exact ⟨trivial, rfl, service, requests⟩

/-- A heartbeat does the same to both, whichever of two bodies alike it has. -/
theorem Alike.receive (alike : Alike left right) (host : String) {post other : Endpoint.Request}
    (received : Endpoint.receiveBody host post.body = Endpoint.receiveBody host other.body)
    (same : heading post = heading other) :
    (left.step plan (.heartbeat host post)).2 = (right.step plan (.heartbeat host other)).2 ∧
      Alike (left.step plan (.heartbeat host post)).1
        (right.step plan (.heartbeat host other)).1 := by
  simp only [step, received]
  cases Endpoint.receiveBody host other.body with
  | replied reply lines => exact ⟨rfl, alike⟩
  | admitted _ report =>
    have stored : Alike { left with requests := left.requests ++ [post] }
        { right with requests := right.requests ++ [other] } :=
      ⟨alike.reconciler, alike.service, by simp [alike.requests, same]⟩
    have length : left.requests.length = right.requests.length := by
      simpa using congrArg List.length alike.requests
    rw [alike.service, length]
    exact stored.adopt _

/-- Moves alike have the same effects, and leave sidecars alike. -/
theorem Alike.step (alike : Alike left right) {move other : Move} (moves : move.Alike other) :
    (left.step plan move).2 = (right.step plan other).2 ∧
      Alike (left.step plan move).1 (right.step plan other).1 := by
  cases moves with
  | heartbeat first second host post =>
    exact alike.receive plan host (receiveBody_congr first second host) rfl
  | same =>
    cases move with
    | watch move => exact alike.reconcile plan (.watch move)
    | review => exact alike.reconcile plan .review
    | read outcome => exact alike.reconcile plan (.read outcome)
    | heartbeat host request => exact alike.receive plan host rfl rfl
    | patched outcome =>
      simp only [Sidecar.step, alike.service]
      cases right.service.holder with
      | none => exact ⟨rfl, alike⟩
      | some held =>
        obtain ⟨turn, aspect⟩ := held
        simp only [alike.patch]
        obtain ⟨effects, next⟩ := alike.adopt
          (right.service.complete ((right.patch turn aspect).result outcome).1)
        exact ⟨by rw [effects], next⟩

/-- Runs alike have the same effects. -/
theorem Alike.run (alike : Alike left right) {moves others : List Move}
    (each : List.Forall₂ Move.Alike moves others) :
    (left.run plan moves).2 = (right.run plan others).2 := by
  induction each generalizing left right with
  | nil => rfl
  | cons first _ inductionHypothesis =>
    obtain ⟨effects, next⟩ := alike.step plan first
    rw [Sidecar.run, Sidecar.run, Machine.run_cons, Machine.run_cons, effects,
      inductionHypothesis next]

/-- Every heartbeat can be put on the wire. However it is spelled there, it is taken for a heartbeat
    and read back as it is, and the sidecar does the same for any two spellings, whatever its state
    is and whatever happens later. -/
theorem heartbeats_independent_of_spelling (request : Heartbeat.Request) :
    (∃ body, request.Wire body) ∧
    ∀ body other, request.Wire body → request.Wire other →
      Heartbeat.Request.isBlank body = false ∧
      Heartbeat.Request.decode body = Except.ok request ∧
      ∀ (plan : Watch.Plan) (sidecar : Sidecar) (host : String) (post : Endpoint.Request)
        (moves others : List Move), List.Forall₂ Move.Alike moves others →
        (sidecar.run plan (.heartbeat host { post with body } :: moves)).2 =
          (sidecar.run plan (.heartbeat host { post with body := other } :: others)).2 := by
  refine ⟨⟨_, Heartbeat.Request.wire_toJson request⟩, fun body other first second => ?_⟩
  refine ⟨Heartbeat.Request.isBlank_wire first, Heartbeat.Request.decode_wire first, ?_⟩
  intro plan sidecar host post moves others alike
  have self : Alike sidecar sidecar := ⟨rfl, rfl, rfl⟩
  exact self.run plan (.cons (.heartbeat first second host post) alike)

open Heartbeat.Request (Field SpellsPlayer MeansState MeansHealth MeansPlayers stateNames
  healthNames playersNames) in
open Json (Members Document isBlank_nil quotation_writeText phrase_string) in
/-- Two spellings of one heartbeat: under the usual names and with nothing else, and under other
    names in another order, with blanks, an escaped letter and a member that nobody knows. -/
theorem heartbeats_independent_of_spelling_twice :
    let request : Heartbeat.Request := ⟨some .active, "Healthy", ["p"]⟩
    let odd := "\x7b \"x\":null,\"current_players\":[\x7b\"PlayerId\":\"\\u0070\"\x7d],\n" ++
      "\"CurrentGameHealth\":\"Healthy\",\"CurrentGameState\":\"Active\"\x7d"
    request.Wire odd.toUTF8 ∧ Heartbeat.Request.decode odd.toUTF8 = Except.ok request ∧
      ∀ (plan : Watch.Plan) (sidecar : Sidecar) (host : String) (post : Endpoint.Request)
        (moves : List Move),
        (sidecar.run plan (.heartbeat host { post with body := odd.toUTF8 } :: moves)).2 =
          (sidecar.run plan (.heartbeat host
            { post with body := request.toJson.document.toUTF8 } :: moves)).2 := by
  intro request odd
  let player : Json := .object (OrderedMap.ofPairs [("PlayerId", .string "p")])
  let pairs : List (String × Json) := [("x", .null), ("current_players", .array [player]),
    ("CurrentGameHealth", .string "Healthy"), ("CurrentGameState", .string "Active")]
  have spells : request.Spells (.object (OrderedMap.ofPairs pairs)) := by
    have state : Field stateNames (MeansState request.state)
        [("CurrentGameState", .string "Active")] := .given (by decide) (.named .active)
    have health : Field healthNames (MeansHealth request.health)
        [("CurrentGameHealth", .string "Healthy")] := .given (by decide) (.text "Healthy")
    have listed : List.Forall₂ SpellsPlayer request.players [player] :=
      .cons (.object (.given (by decide) (.text "p")) (List.forall_mem_nil _) (.refl _)) .nil
    have players : Field playersNames (MeansPlayers request.players)
        [("current_players", .array [player])] := .given (by decide) (.listed listed)
    have unknown : ∀ pair ∈ [("x", Json.null)],
        pair.1 ∉ stateNames ++ healthNames ++ playersNames :=
      List.forall_mem_singleton.mpr (by decide)
    exact .object state health players unknown (List.reverse_perm pairs).symm
  have document : Document Heartbeat.Request.limits (.object (OrderedMap.ofPairs pairs))
      odd.toList := by
    have space : Json.IsBlank [' '] := List.forall_mem_singleton.mpr (by decide)
    have lineFeed : Json.IsBlank ['\n'] := List.forall_mem_singleton.mpr (by decide)
    have zero : Json.IsHexDigit 0 '0' := ⟨by decide, .inl rfl⟩
    have seven : Json.IsHexDigit 7 '7' := ⟨by decide, .inl rfl⟩
    have unit : Json.CodeUnit 'p'.toNat _ := Json.CodeUnit.digits zero zero seven zero
    have escaped : Json.Spells "p".toList "\\u0070".toList := .cons (.unit unit) .nil
    have listed : Json.Phrase ⟨199, 4300⟩ (.array [player]) _ :=
      .array (.last isBlank_nil (.object
        (.last isBlank_nil (quotation_writeText "PlayerId") isBlank_nil isBlank_nil
          (.text (.quoted escaped)) isBlank_nil)) isBlank_nil)
    have members : Members ⟨199, 4300⟩ pairs _ :=
      .cons space (quotation_writeText "x") isBlank_nil isBlank_nil (.word .null) isBlank_nil
        (.cons isBlank_nil (quotation_writeText "current_players") isBlank_nil isBlank_nil listed
          isBlank_nil (.cons lineFeed (quotation_writeText "CurrentGameHealth") isBlank_nil
            isBlank_nil (phrase_string _ "Healthy") isBlank_nil
            (.last isBlank_nil (quotation_writeText "CurrentGameState") isBlank_nil isBlank_nil
              (phrase_string _ "Active") isBlank_nil)))
    have whole : Document Heartbeat.Request.limits _ _ :=
      .phrase isBlank_nil (.object members) isBlank_nil
    have written : odd.toList = _ := String.toList_append
    rw [written]
    exact whole
  have wire : request.Wire odd.toUTF8 := .document spells document
  obtain ⟨-, reads, runs⟩ := (heartbeats_independent_of_spelling request).2 _ _ wire
    (Heartbeat.Request.wire_toJson request)
  refine ⟨wire, reads, fun plan sidecar host post moves => ?_⟩
  exact runs plan sidecar host post moves moves (List.forall₂_same.mpr fun move _ => .same move)

end Sidecar

end GameSidecar
