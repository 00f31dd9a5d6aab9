import GameSidecar.Proofs.Entries
import GameSidecar.Proofs.Reading
import GameSidecar.Proofs.Writing

/-!
# The descriptor stands for the settings

The game learns from the descriptor what the bootstrap was told by its environment. The document is
read back as one object, whose members are given by the settings and by what their lists of ports
and metadata say. No text is lost on the way, whatever characters it has, and no port either: its
number may be of any size that can be read at all. The maps of the descriptor are made of entries
that may name a key twice, but a map holds it once, and so does the document.
-/

namespace GameSidecar

namespace Decimal

/-- The value of a digit is less than ten. -/
theorem digitValue?_lt {character : Char} {value : Nat}
    (read : digitValue? character = some value) : value < 10 := by
  obtain ⟨start, found, rfl⟩ := Option.map_eq_some_iff.mp read
  have within := List.find?_some found
  simp only [Bool.and_eq_true, decide_eq_true_eq] at within
  omega

/-- Digits after a number that has been read keep the result below the next number, shifted by
    their places. -/
theorem positional_lt {text : List Char} {values : List Nat} (start : Nat)
    (all : digitValues? text = some values) :
    positional start values < (start + 1) * 10 ^ text.length := by
  -- Digits are folded from the left, so the induction is for every number read before them.
  induction text generalizing start values with
  | nil =>
    obtain rfl := Option.some.inj all
    simp [positional]
  | cons character text inductionHypothesis =>
    rw [digitValues?, List.mapM_cons] at all
    obtain ⟨value, first, more⟩ := Option.bind_eq_some_iff.mp all
    obtain ⟨others, later, same⟩ := Option.bind_eq_some_iff.mp more
    obtain rfl := Option.some.inj same
    have small := digitValue?_lt first
    calc positional start (value :: others)
        = positional (10 * start + value) others := rfl
      _ < (10 * start + value + 1) * 10 ^ text.length :=
        inductionHypothesis (10 * start + value) later
      _ ≤ ((start + 1) * 10) * 10 ^ text.length := Nat.mul_le_mul_right _ (by omega)
      _ = (start + 1) * 10 ^ (character :: text).length := by
        rw [List.length_cons, Nat.pow_succ, Nat.mul_assoc, Nat.mul_comm 10]

/-- A number that is read is below the power of ten with as many zeros as there are digits. -/
theorem read?_lt {text : List Char} {number : Nat} (read : read? text = some number) :
    number < 10 ^ text.length := by
  unfold read? at read
  split at read
  · cases read
  · obtain ⟨values, all, rfl⟩ := Option.map_eq_some_iff.mp read
    simpa using positional_lt 0 all

end Decimal

namespace Bootstrap

namespace Port

/-- Both numbers of a port can be written with some digits. -/
def IsBounded (digits : Nat) (port : Port) : Prop :=
  port.listening < 10 ^ digits ∧ port.connecting < 10 ^ digits

/-- A number of a port has no more digits than are allowed. -/
theorem number_lt {name text : List Char} {side : Side} {value : Nat}
    (read : number name side text = .ok value) : value < 10 ^ longestNumber := by
  unfold number at read
  split at read
  · cases read
  · next number found =>
    split at read
    · next short =>
      obtain rfl := Except.ok.inj read
      exact Nat.lt_of_lt_of_le (Decimal.read?_lt found) (Nat.pow_le_pow_right (by decide) short)
    · cases read

/-- The two numbers of a port that is read are bounded. -/
theorem isBounded_of_ofEntry {entry : List Char} {port : Port} (read : ofEntry entry = .ok port) :
    port.IsBounded longestNumber := by
  unfold ofEntry at read
  split at read
  · next name container host split =>
    obtain ⟨listening, inside, laterRead⟩ := ok_of_bind read
    obtain ⟨connecting, outside, same⟩ := ok_of_bind laterRead
    obtain rfl := Except.ok.inj same
    exact ⟨number_lt inside, number_lt outside⟩
  · cases read

/-- The numbers of all ports of a list that is read are bounded. -/
theorem isBounded_of_readAll {text : List Char} {ports : List Port}
    (read : readAll text = .ok ports) : ∀ port ∈ ports, port.IsBounded longestNumber := by
  intro port member
  obtain ⟨entry, -, entryRead⟩ := exists_of_mem_mapM read member
  exact isBounded_of_ofEntry entryRead

end Port

namespace Descriptor

open Json (Limits Phrase Document phrase_string phrase_int phrase_array phrase_object)

/-- How deep the descriptor is nested, and how many digits an integer in it may have. -/
def limits : Limits :=
  ⟨4, Port.longestNumber⟩

/-- What the game is told, by the settings and by what their lists of ports and metadata say. -/
def told (settings : Settings) (ports : List Port) (metadata : OrderedMap String String) : Json :=
  .object [
    ("heartbeatEndpoint", .string (settings.nodeAddress ++ ":" ++ settings.heartbeatPort)),
    ("sessionHostId", .string settings.serverName),
    ("vmId", .string settings.machine),
    ("logFolder", .string settings.logFolder),
    ("certificateFolder", .string settings.certificateFolder),
    ("sharedContentFolder", .string settings.sharedFolder),
    ("buildMetadata", .object (metadata.map fun entry => (entry.1, .string entry.2))),
    ("gamePorts", .object ((OrderedMap.ofPairs (ports.map fun port =>
      (port.name, String.ofList (Decimal.write port.listening)))).map fun entry =>
        (entry.1, .string entry.2))),
    ("publicIpV4Address", .string settings.nodeAddress),
    ("gameServerConnectionInfo", .object [
      ("publicIpV4Address", .string settings.nodeAddress),
      ("gamePortsConfiguration", .array (ports.map fun port => .object [
        ("name", .string port.name),
        ("serverListeningPort", .int port.listening),
        ("clientConnectionPort", .int port.connecting)]))]),
    ("serverInstanceNumber", .int 0),
    ("fullyQualifiedDomainName", .string "NOT_APPLICABLE")]

section Phrases

variable {digits : Nat}

/-- A map of texts is written as a phrase. -/
theorem phrase_textMap {map : OrderedMap String String} (distinct : map.keys.Nodup) (depth : Nat) :
    Phrase ⟨depth + 1, digits⟩ (textMap map) (textMap map).write := by
  refine phrase_object (by simpa using distinct) fun pair member => ?_
  obtain ⟨entry, -, rfl⟩ := List.mem_map.mp member
  exact phrase_string _ entry.2

variable (positive : 0 < digits)
include positive

/-- A number that is bounded is written as a phrase. -/
theorem phrase_nat (depth : Nat) {number : Nat} (small : number < 10 ^ digits) :
    Phrase ⟨depth, digits⟩ (.int number) (Json.int number).write :=
  phrase_int positive (by simpa using small)

/-- A port whose numbers are bounded is written as a phrase. -/
theorem phrase_port {port : Port} (bounded : port.IsBounded digits) (depth : Nat) :
    Phrase ⟨depth + 1, digits⟩ port.toJson port.toJson.write := by
  refine phrase_object (by simp [OrderedMap.keys]) ?_
  simp only [List.forall_mem_cons]
  exact ⟨phrase_string _ _, phrase_nat positive depth bounded.1,
    phrase_nat positive depth bounded.2, List.forall_mem_nil _⟩

/-- A list of such ports is written as a phrase, one level deeper. -/
theorem phrase_ports {ports : List Port} (bounded : ∀ port ∈ ports, port.IsBounded digits)
    (depth : Nat) : Phrase ⟨depth + 2, digits⟩ (.array (ports.map Port.toJson))
      (Json.array (ports.map Port.toJson)).write := by
  refine phrase_array fun item member => ?_
  obtain ⟨port, present, rfl⟩ := List.mem_map.mp member
  exact phrase_port positive (bounded port present) depth

/-- The descriptor is written as a phrase, if its metadata hold each key once and the numbers of its
    ports can be written. -/
theorem phrase_toJson {descriptor : Descriptor} (distinct : descriptor.metadata.keys.Nodup)
    (bounded : ∀ port ∈ descriptor.ports, port.IsBounded digits) :
    Phrase ⟨4, digits⟩ descriptor.toJson descriptor.toJson.write := by
  refine phrase_object (by simp [OrderedMap.keys]) ?_
  simp only [List.forall_mem_cons]
  refine ⟨phrase_string _ _, phrase_string _ _, phrase_string _ _, phrase_string _ _,
    phrase_string _ _, phrase_string _ _, phrase_textMap distinct 2,
    phrase_textMap (OrderedMap.nodup_ofPairs _) 2, phrase_string _ _, ?_,
    phrase_nat positive 3 (Nat.pow_pos (by decide)), phrase_string _ _,
    List.forall_mem_nil _⟩
  refine phrase_object (by simp [OrderedMap.keys]) ?_
  simp only [List.forall_mem_cons]
  exact ⟨phrase_string _ _, phrase_ports positive bounded 0, List.forall_mem_nil _⟩

end Phrases

/-- Metadata that are read hold no key twice. -/
theorem nodup_of_read {text : List Char} {metadata : OrderedMap String String}
    (read : Metadata.read text = .ok metadata) : metadata.keys.Nodup := by
  unfold Metadata.read at read
  cases all : (entries text).mapM Metadata.pair with
  | error error => simp [all, Except.map] at read
  | ok pairs =>
    simp only [all, Except.map, Except.ok.injEq] at read
    exact read ▸ OrderedMap.nodup_ofPairs pairs

/-- If the lists of ports and metadata can be read, there is a descriptor of what they say. -/
theorem exists_descriptor {settings : Settings} {ports : List Port}
    {metadata : OrderedMap String String}
    (portsRead : Port.readAll settings.ports.toList = .ok ports)
    (metadataRead : Metadata.read settings.metadata.toList = .ok metadata) :
    ∃ descriptor, ofSettings settings = .ok descriptor ∧ descriptor.ports = ports ∧
      descriptor.metadata = metadata ∧ descriptor.toJson = told settings ports metadata := by
  refine ⟨⟨settings.nodeAddress ++ ":" ++ settings.heartbeatPort, settings.serverName,
    settings.machine, settings.logFolder, settings.certificateFolder, settings.sharedFolder,
    metadata, ports, settings.nodeAddress⟩, ?_, rfl, rfl, rfl⟩
  simp only [ofSettings, portsRead, metadataRead]
  rfl

/-- The document of a descriptor stands for what the game is told, and for nothing else. -/
theorem document_stands_for_told {settings : Settings} {ports : List Port}
    {metadata : OrderedMap String String}
    (portsRead : Port.readAll settings.ports.toList = .ok ports)
    (metadataRead : Metadata.read settings.metadata.toList = .ok metadata) :
    ∃ descriptor, ofSettings settings = .ok descriptor ∧
      Document limits (told settings ports metadata) descriptor.document.toList ∧
      ∀ bounds value, Document bounds value descriptor.document.toList →
        value = told settings ports metadata := by
  obtain ⟨descriptor, described, rfl, rfl, same⟩ := exists_descriptor portsRead metadataRead
  have positive : 0 < Port.longestNumber := by decide
  have phrase := phrase_toJson positive (nodup_of_read metadataRead)
    (Port.isBounded_of_readAll portsRead)
  have whole : Document limits _ descriptor.document.toList := Json.document_document phrase
  rw [same] at whole
  exact ⟨descriptor, described, whole, fun bounds value document => document.unique whole⟩

/-- A port and a key of the metadata are named twice, and the texts hold quotes, control characters
    and characters of several scripts. -/
theorem document_stands_for_told_unusual :
    let settings : Settings := {
      serverName := "gs \"1\""
      serverNamespace := "default"
      heartbeatPort := "56001"
      descriptorFile := "/data/gsdk.json"
      sharedFolder := "/shared\\content"
      certificateFolder := "\u0000"
      logFolder := "/logs\n"
      machine := "мост"
      ports := "game,80,0010000??\",443,١٢?game,81,7"
      nodeAddress := "10.0.0.4"
      metadata := "key,a?,b,\t?key,🎲"
      level := .usual }
    ∃ descriptor, ofSettings settings = .ok descriptor ∧
      Document limits (told settings [⟨"game", 80, 10000⟩, ⟨"\"", 443, 12⟩, ⟨"game", 81, 7⟩]
        [("key", "🎲"), ("", "b,\t")]) descriptor.document.toList ∧
      ∀ bounds value, Document bounds value descriptor.document.toList →
        value = told settings [⟨"game", 80, 10000⟩, ⟨"\"", 443, 12⟩, ⟨"game", 81, 7⟩]
          [("key", "🎲"), ("", "b,\t")] :=
  document_stands_for_told (by rfl) (by rfl)

end Descriptor

end Bootstrap

end GameSidecar
