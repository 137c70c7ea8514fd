import Egress.Socks

/-!
The format of a SOCKS5 request, as a proxy reads it. What a client sends is read as its target and
port and ends there, whatever follows, and nothing else is read as the same. So no request is the
beginning of another.
-/

namespace Egress

namespace Socks

inductive Command
  | connect
  | bind
  | associate
deriving DecidableEq

/-- Where a request leads. Of a name it holds the bytes, which need not be text. -/
inductive Destination
  | ipv4 (a : Ipv4)
  | ipv6 (a : Ipv6)
  | domain (name : List UInt8)
deriving DecidableEq

structure Request where
  command : Command
  destination : Destination
  port : UInt16
deriving DecidableEq

namespace Command

def byte : Command → UInt8
  | connect => 1
  | bind => 2
  | associate => 3

def ofByte? (b : UInt8) : Option Command := [connect, bind, associate].find? (·.byte == b)

theorem ofByte?_eq_some {b : UInt8} {c : Command} : ofByte? b = some c ↔ b = c.byte := by
  constructor
  · intro h
    have hfound := List.find?_some h
    exact (beq_iff_eq.1 hfound).symm
  · rintro rfl
    cases c <;> rfl

end Command

/-- Reads so many bytes as what they stand for, and gives the bytes behind them too. -/
def readPart? {α : Type} (n : Nat) (meaning : List UInt8 → α) (bytes : List UInt8) :
    Option (α × List UInt8) :=
  if n ≤ bytes.length then some (meaning (bytes.take n), bytes.drop n) else none

/-- Reads an address of the given type, a name by the length in front of it. -/
def readDestination? (type : UInt8) (bytes : List UInt8) : Option (Destination × List UInt8) :=
  if type = 1 then readPart? 4 (Destination.ipv4 ∘ Ipv4.ofOctets) bytes
  else if type = 4 then readPart? 16 (Destination.ipv6 ∘ Ipv6.ofOctets) bytes
  else if type = 3 then
    match bytes with
    | [] => none
    | length :: bytes => readPart? length.toNat .domain bytes
  else none

def readPort? : List UInt8 → Option (UInt16 × List UInt8) :=
  readPart? 2 (UInt16.ofNat ∘ Bytes.bigEndian)

/-- Reads a request: version, command, a zero byte, type and address of the destination, port. -/
def readRequest? : List UInt8 → Option (Request × List UInt8)
  | version :: command :: reserved :: type :: bytes =>
      if version = 5 ∧ reserved = 0 then do
        let command ← Command.ofByte? command
        let (destination, bytes) ← readDestination? type bytes
        let (port, rest) ← readPort? bytes
        return (⟨command, destination, port⟩, rest)
      else none
  | _ => none

namespace Destination

def type : Destination → UInt8
  | ipv4 _ => 1
  | domain _ => 3
  | ipv6 _ => 4

/-- The address field that stands for a destination. -/
def field : Destination → List UInt8
  | ipv4 a => a.octets
  | ipv6 a => a.octets
  | domain name => UInt8.ofNat name.length :: name

/-- The length of a name has to fit its byte. -/
def Fits : Destination → Prop
  | ipv4 _ | ipv6 _ => True
  | domain name => name.length ≤ 255

end Destination

/-- The bytes that stand for a request. -/
def Request.bytes (r : Request) : List UInt8 :=
  [5, r.command.byte, 0, r.destination.type] ++ r.destination.field ++
    Bytes.toBigEndian 2 r.port.toNat

theorem readPart?_eq_some {α : Type} {n : Nat} {meaning : List UInt8 → α} {a : α}
    {bytes rest : List UInt8} : readPart? n meaning bytes = some (a, rest) ↔
      ∃ part, part.length = n ∧ meaning part = a ∧ bytes = part ++ rest := by
  rw [readPart?, Option.ite_none_right_eq_some, Option.some.injEq, Prod.mk.injEq]
  constructor
  · rintro ⟨hle, hmeaning, rfl⟩
    exact ⟨_, List.length_take_of_le hle, hmeaning, (List.take_append_drop n bytes).symm⟩
  · rintro ⟨part, rfl, rfl, rfl⟩
    refine ⟨?_, by rw [List.take_left], List.drop_left⟩
    rw [List.length_append]
    exact Nat.le_add_right _ _

/-- A destination is read from exactly the bytes that its field starts. -/
theorem readDestination?_eq_some {type : UInt8} {bytes rest : List UInt8} {d : Destination} :
    readDestination? type bytes = some (d, rest) ↔
      d.Fits ∧ type = d.type ∧ bytes = d.field ++ rest := by
  constructor
  · intro h
    unfold readDestination? at h
    split at h <;> rename_i htype
    · obtain ⟨octets, hlength, rfl, rfl⟩ := readPart?_eq_some.1 h
      exact ⟨trivial, htype, congrArg (· ++ rest) (Ipv4.octets_ofOctets hlength).symm⟩
    split at h <;> rename_i htype
    · obtain ⟨octets, hlength, rfl, rfl⟩ := readPart?_eq_some.1 h
      exact ⟨trivial, htype, congrArg (· ++ rest) (Ipv6.octets_ofOctets hlength).symm⟩
    split at h <;> rename_i htype
    · cases bytes with
      | nil => cases h
      | cons length bytes =>
          obtain ⟨name, hlength, rfl, rfl⟩ := readPart?_eq_some.1 h
          have hfits : name.length ≤ 255 := by
            have := length.toNat_lt
            omega
          refine ⟨hfits, htype, ?_⟩
          rw [Destination.field, hlength, UInt8.ofNat_toNat, List.cons_append]
    · cases h
  · rintro ⟨hfits, rfl, rfl⟩
    cases d with
    | ipv4 a =>
        change readPart? 4 (Destination.ipv4 ∘ Ipv4.ofOctets) (a.octets ++ rest) = _
        exact readPart?_eq_some.2 ⟨_, a.length_octets, congrArg _ a.ofOctets_octets, rfl⟩
    | ipv6 a =>
        change readPart? 16 (Destination.ipv6 ∘ Ipv6.ofOctets) (a.octets ++ rest) = _
        exact readPart?_eq_some.2 ⟨_, a.length_octets, congrArg _ a.ofOctets_octets, rfl⟩
    | domain name =>
        refine readPart?_eq_some.2 ⟨name, ?_, rfl, rfl⟩
        exact (UInt8.toNat_ofNat_of_lt' (Nat.lt_succ_of_le hfits)).symm

theorem readPort?_eq_some {bytes rest : List UInt8} {port : UInt16} :
    readPort? bytes = some (port, rest) ↔ bytes = Bytes.toBigEndian 2 port.toNat ++ rest := by
  rw [readPort?, readPart?_eq_some]
  constructor
  · rintro ⟨part, hlength, rfl, rfl⟩
    rw [Function.comp_apply, Bytes.toBigEndian_ofNat hlength]
  · rintro rfl
    exact ⟨_, Bytes.length_toBigEndian .., Bytes.ofNat_toBigEndian port, rfl⟩

/-- A request is read from exactly the bytes that it starts. -/
theorem readRequest?_eq_some {bytes rest : List UInt8} {r : Request} :
    readRequest? bytes = some (r, rest) ↔ r.destination.Fits ∧ bytes = r.bytes ++ rest := by
  constructor
  · intro h
    match bytes, h with
    | version :: command :: reserved :: type :: bytes, h =>
      rw [readRequest?, Option.ite_none_right_eq_some] at h
      obtain ⟨⟨rfl, rfl⟩, h⟩ := h
      obtain ⟨c, hcommand, h⟩ := Option.bind_eq_some_iff.1 h
      obtain ⟨⟨d, behind⟩, hdestination, h⟩ := Option.bind_eq_some_iff.1 h
      obtain ⟨⟨port, behind⟩, hport, h⟩ := Option.bind_eq_some_iff.1 h
      obtain ⟨rfl, rfl⟩ := Prod.mk.inj (Option.some.inj h)
      obtain rfl := Command.ofByte?_eq_some.1 hcommand
      obtain ⟨hfits, rfl, rfl⟩ := readDestination?_eq_some.1 hdestination
      obtain rfl := readPort?_eq_some.1 hport
      refine ⟨hfits, ?_⟩
      simp only [Request.bytes, List.append_assoc, List.cons_append, List.nil_append]
  · rintro ⟨hfits, rfl⟩
    have hbytes : r.bytes ++ rest = 5 :: r.command.byte :: 0 :: r.destination.type ::
        (r.destination.field ++ (Bytes.toBigEndian 2 r.port.toNat ++ rest)) := by
      simp only [Request.bytes, List.append_assoc, List.cons_append, List.nil_append]
    have hdestination := readDestination?_eq_some.2
      ⟨hfits, rfl, Eq.refl (r.destination.field ++ (Bytes.toBigEndian 2 r.port.toNat ++ rest))⟩
    have hport := readPort?_eq_some.2 (Eq.refl (Bytes.toBigEndian 2 r.port.toNat ++ rest))
    simp only [hbytes, readRequest?, and_self, if_true, Command.ofByte?_eq_some.2 rfl,
      hdestination, hport, Option.bind_eq_bind, Option.bind_some]
    rfl

/-- The target as a proxy is told it. -/
def Target.destination : Target → Destination
  | ipv4 a => .ipv4 a
  | ipv6 a => .ipv6 a
  | domain name => .domain (Text.bytes name)

theorem Target.destination_injective {t u : Target} (h : t.destination = u.destination) :
    t = u := by
  cases t <;> cases u <;> simp only [destination, Destination.ipv4.injEq, Destination.ipv6.injEq,
    Destination.domain.injEq, reduceCtorEq] at h
  · rw [h]
  · rw [h]
  · rw [Text.bytes_injective h]

/-- What is sent for a target is the request to connect to it. Only names of no bytes and of more
than a length byte can say are refused. -/
theorem connectRequest_cases (target : Target) (port : UInt16) :
    (∃ name, target = .domain name ∧
      ((Text.bytes name).length = 0 ∨ 255 < (Text.bytes name).length) ∧
      connectRequest target port = .error (.nameLength (Text.bytes name).length)) ∨
    ((∀ name, target = .domain name →
        (Text.bytes name).length ≠ 0 ∧ (Text.bytes name).length ≤ 255) ∧
      target.destination.Fits ∧
      connectRequest target port = .ok (Request.bytes ⟨.connect, target.destination, port⟩)) := by
  cases target with
  | ipv4 a => exact .inr ⟨nofun, trivial, rfl⟩
  | ipv6 a => exact .inr ⟨nofun, trivial, rfl⟩
  | domain name =>
      by_cases hlength : (Text.bytes name).length = 0 ∨ 255 < (Text.bytes name).length
      · refine .inl ⟨name, rfl, hlength, ?_⟩
        simp only [connectRequest, Target.payload, if_pos hlength]
      · have hfits : (Text.bytes name).length ≠ 0 ∧ (Text.bytes name).length ≤ 255 := by omega
        refine .inr ⟨?_, hfits.2, ?_⟩
        · rintro same ⟨⟩
          exact hfits
        · simp only [connectRequest, Target.payload, if_neg hlength]
          rfl

/-- A target and a port make a request unless the target is a name of no or of too many bytes. A
stream is read as a request to connect to them exactly if it is their request with anything behind
it. So the request is the beginning of no other. -/
theorem connectRequest_unambiguous (target : Target) (port : UInt16) :
    match connectRequest target port with
    | .error fault => ∃ name, target = .domain name ∧
        ((Text.bytes name).length = 0 ∨ 255 < (Text.bytes name).length) ∧
        fault = .nameLength (Text.bytes name).length
    | .ok request =>
        (∀ name, target = .domain name →
          (Text.bytes name).length ≠ 0 ∧ (Text.bytes name).length ≤ 255) ∧
        (∀ bytes rest, readRequest? bytes = some (⟨.connect, target.destination, port⟩, rest) ↔
          bytes = request ++ rest) ∧
        ∀ other otherPort otherRequest, connectRequest other otherPort = .ok otherRequest →
          request <+: otherRequest → other = target ∧ otherPort = port := by
  rcases connectRequest_cases target port with
    ⟨name, htarget, hlength, hrequest⟩ | ⟨hsendable, hfits, hrequest⟩
  · rw [hrequest]
    exact ⟨name, htarget, hlength, rfl⟩
  · rw [hrequest]
    have hread (bytes rest : List UInt8) :
        readRequest? bytes = some (⟨.connect, target.destination, port⟩, rest) ↔
          bytes = Request.bytes ⟨.connect, target.destination, port⟩ ++ rest := by
      rw [readRequest?_eq_some, and_iff_right hfits]
    refine ⟨hsendable, hread, ?_⟩
    rintro other otherPort otherRequest hother ⟨rest, rfl⟩
    rcases connectRequest_cases other otherPort with
      ⟨_, -, -, hrefused⟩ | ⟨-, hfitsToo, hsent⟩
    · cases hrefused.symm.trans hother
    · have hextended := Except.ok.inj (hsent.symm.trans hother)
      have hwhole : readRequest? (Request.bytes ⟨.connect, other.destination, otherPort⟩) =
          some (⟨.connect, other.destination, otherPort⟩, []) :=
        readRequest?_eq_some.2 ⟨hfitsToo, (List.append_nil _).symm⟩
      rw [hextended] at hwhole
      have hsame := Option.some.inj (hwhole.symm.trans ((hread _ rest).2 rfl))
      obtain ⟨-, hdestination, hport⟩ := Request.mk.inj (congrArg Prod.fst hsame)
      exact ⟨Target.destination_injective hdestination, hport⟩

end Socks

end Egress
