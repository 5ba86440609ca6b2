/-
The socket classes of resources that name no address family.

A resource that names a type only stands for the classes of this type, and one that names a protocol
only for the classes of this protocol.  One that names both does not stand for all of these classes.
Its protocol decides alone about the internet classes, so those of the type are lost that the
protocol does not imply, and its type keeps the netlink classes out.

* `Socket.AreCombined` — nothing is lost of a type and a protocol.

Main statements:
* `inetClasses_subset`, `netlinkClasses_subset`, `unixClasses_subset` — the three families of
  classes, which are apart;
* `mem_classesOf_type`, `mem_classesOf_protocol`, `mem_classesOf_both` — the classes of each kind of
  resource, by family;
* `areCombined_iff` — for which types and protocols nothing is lost;
* `classes_without_family` — what a type and a protocol stand for together.
-/
import TypeEnforcement.Grant.Socket

namespace TypeEnforcement.Socket

variable {socketType protocol c : String}

/-! ### Families of classes -/

/-- A protocol decides alone about the internet classes. -/
theorem inetClasses_of_protocol (h : protocol ≠ "") (socketType : String) :
    inetClasses socketType protocol = inetClasses "" protocol := by
  fun_cases inetClasses socketType protocol <;> simp_all [inetClasses]

theorem inetClasses_subset (socketType protocol : String) :
    inetClasses socketType protocol ⊆ inet := by
  fun_cases inetClasses socketType protocol <;> decide

theorem netlinkClasses_subset (protocol : String) : netlinkClasses protocol ⊆ netlink := by
  unfold netlinkClasses
  split
  · exact List.Subset.refl netlink
  · split
    · rename_i hknown
      have hclass : netlinkClass protocol ∈ netlink :=
        List.mem_append_left _ (List.mem_map_of_mem hknown)
      simpa using hclass
    · exact List.nil_subset netlink

theorem unixClasses_subset (socketType : String) : unixClasses socketType ⊆ unixClasses "" := by
  fun_cases unixClasses socketType <;> decide

theorem not_mem_netlink_of_mem_inet (h : c ∈ inet) : c ∉ netlink := by
  have hall : ∀ c ∈ inet, c ∉ netlink := by decide
  exact hall c h

/-- A class of local sockets is none of the internet or of netlink. -/
theorem not_mem_of_mem_unixClasses (h : c ∈ unixClasses socketType) : c ∉ inet ∧ c ∉ netlink := by
  have hall : ∀ c ∈ unixClasses "", c ∉ inet ∧ c ∉ netlink := by decide
  exact hall c (unixClasses_subset socketType h)

/-! ### Resources without a family -/

theorem mem_classesOf_type (h : socketType ≠ "") :
    c ∈ classesOf { socketType } ↔ c ∈ inetClasses socketType "" ∨ c ∈ unixClasses socketType := by
  simp [classesOf, classesWithoutFamily, h]

theorem mem_classesOf_protocol (h : protocol ≠ "") :
    c ∈ classesOf { protocol } ↔ c ∈ inetClasses "" protocol ∨ c ∈ netlinkClasses protocol := by
  simp [classesOf, classesWithoutFamily, h]

theorem mem_classesOf_both (htype : socketType ≠ "") (hprotocol : protocol ≠ "") :
    c ∈ classesOf { socketType, protocol } ↔
      c ∈ inetClasses "" protocol ∨ c ∈ unixClasses socketType := by
  simp [classesOf, classesWithoutFamily, htype, inetClasses_of_protocol hprotocol]

/-- Of the classes of a type and of a protocol those are kept that are not of netlink and, if they
are of the internet, belong to the protocol. -/
theorem mem_classesOf_both_iff (htype : socketType ≠ "") (hprotocol : protocol ≠ "") :
    c ∈ classesOf { socketType, protocol } ↔
      (c ∈ classesOf { socketType } ∨ c ∈ classesOf { protocol }) ∧
        c ∉ netlink ∧ (c ∈ inet → c ∈ classesOf { protocol }) := by
  -- Each class is of one family, and its family tells which of the three conditions matters.
  rw [mem_classesOf_both htype hprotocol, mem_classesOf_type htype,
    mem_classesOf_protocol hprotocol]
  constructor
  · rintro (hinet | hunix)
    · have hnetlink := not_mem_netlink_of_mem_inet (inetClasses_subset _ _ hinet)
      exact ⟨.inr (.inl hinet), hnetlink, fun _ => .inl hinet⟩
    · obtain ⟨hinet, hnetlink⟩ := not_mem_of_mem_unixClasses hunix
      exact ⟨.inl (.inr hunix), hnetlink, fun h => absurd h hinet⟩
  · rintro ⟨(hinet | hunix) | (hinet | hother), hnetlink, hkept⟩
    · obtain hprotocol | hother := hkept (inetClasses_subset _ _ hinet)
      · exact .inl hprotocol
      · exact absurd (netlinkClasses_subset _ hother) hnetlink
    · exact .inr hunix
    · exact .inl hinet
    · exact absurd (netlinkClasses_subset _ hother) hnetlink

/-! ### Types and protocols of which nothing is lost -/

/-- The types that stand for internet classes. -/
def inetTypes : List String :=
  ["stream", "dgram", "seqpacket", "raw"]

/-- The protocols that stand for internet classes. -/
def inetProtocols : List String :=
  ["tcp", "udp", "dccp", "sctp", "icmp"]

/-- Nothing is lost of a type and a protocol: netlink does not know the protocol, and the protocol
has the internet classes of the type. -/
def AreCombined (socketType protocol : String) : Prop :=
  protocol ∉ netlinkProtocols ∧ (socketType ∉ inetTypes ∨
    (socketType, protocol) ∈ [("dgram", "udp"), ("seqpacket", "sctp")])

instance (socketType protocol : String) : Decidable (AreCombined socketType protocol) :=
  inferInstanceAs (Decidable (_ ∧ _))

theorem inetClasses_of_type (htype : socketType ≠ "") (h : socketType ∉ inetTypes) :
    inetClasses socketType "" = [] := by
  simp only [inetTypes, List.mem_cons, List.not_mem_nil, or_false, not_or] at h
  simp [inetClasses, htype, h]

theorem inetClasses_of_unknown (hprotocol : protocol ≠ "") (h : protocol ∉ inetProtocols) :
    inetClasses "" protocol = [] := by
  simp only [inetProtocols, List.mem_cons, List.not_mem_nil, or_false, not_or] at h
  simp [inetClasses, hprotocol, h]

/-- The types whose internet classes a protocol has. -/
theorem inetClasses_subset_iff (htype : socketType ≠ "") (hprotocol : protocol ≠ "") :
    inetClasses socketType "" ⊆ inetClasses "" protocol ↔ socketType ∉ inetTypes ∨
      (socketType, protocol) ∈ [("dgram", "udp"), ("seqpacket", "sctp")] := by
  -- What is in neither table has no internet classes; the tables are small enough to go through.
  by_cases hfirst : socketType ∈ inetTypes
  · by_cases hsecond : protocol ∈ inetProtocols
    · have hall : ∀ socketType ∈ inetTypes, ∀ protocol ∈ inetProtocols,
          (inetClasses socketType "" ⊆ inetClasses "" protocol ↔ socketType ∉ inetTypes ∨
            (socketType, protocol) ∈ [("dgram", "udp"), ("seqpacket", "sctp")]) := by
        decide
      exact hall socketType hfirst protocol hsecond
    · have hsome : ∀ socketType ∈ inetTypes, inetClasses socketType "" ≠ [] := by decide
      have hpairs : ∀ pair ∈ [("dgram", "udp"), ("seqpacket", "sctp")], pair.2 ∈ inetProtocols := by
        decide
      rw [inetClasses_of_unknown hprotocol hsecond]
      refine iff_of_false (fun h => hsome socketType hfirst (List.eq_nil_of_subset_nil h)) ?_
      exact not_or.2 ⟨fun h => h hfirst, fun h => hsecond (hpairs _ h)⟩
  · simp [hfirst, inetClasses_of_type htype hfirst]

/-- Nothing is lost just if the classes of the protocol include the internet classes of the type and
no class of netlink. -/
theorem areCombined_iff (htype : socketType ≠ "") (hprotocol : protocol ≠ "") :
    AreCombined socketType protocol ↔ ∀ c, c ∈ classesOf { socketType } ∨
      c ∈ classesOf { protocol } → c ∈ classesOf { socketType, protocol } := by
  have hnetlink : protocol ∉ netlinkProtocols ↔ netlinkClasses protocol = [] := by
    simp [netlinkClasses, hprotocol]
  rw [AreCombined, ← inetClasses_subset_iff htype hprotocol, hnetlink]
  simp only [mem_classesOf_both htype hprotocol, mem_classesOf_type htype,
    mem_classesOf_protocol hprotocol]
  constructor
  · rintro ⟨hnone, hsubset⟩ c ((hinet | hunix) | (hinet | hother))
    · exact .inl (hsubset hinet)
    · exact .inr hunix
    · exact .inl hinet
    · rw [hnone] at hother
      cases hother
  · intro hall
    refine ⟨List.eq_nil_iff_forall_not_mem.2 fun c hother => ?_, fun c hinet => ?_⟩
    · have hclass := netlinkClasses_subset _ hother
      obtain hinet | hunix := hall c (.inr (.inr hother))
      · exact not_mem_netlink_of_mem_inet (inetClasses_subset _ _ hinet) hclass
      · exact (not_mem_of_mem_unixClasses hunix).2 hclass
    · refine (hall c (.inl (.inl hinet))).resolve_right fun hunix => ?_
      exact (not_mem_of_mem_unixClasses hunix).1 (inetClasses_subset _ _ hinet)

/-- What resources without a family stand for.  No resource stands for a class twice.  A resource
with a type and a protocol stands for those classes of the two that are not of netlink and, if they
are of the internet, belong to the protocol; these are all classes of the two just if a field is
empty or nothing is lost. -/
theorem classes_without_family (socketType protocol : String) :
    (∀ resource, (classesOf resource).Nodup) ∧
    (∀ c, c ∈ classesOf { socketType, protocol } ↔
      (c ∈ classesOf { socketType } ∨ c ∈ classesOf { protocol }) ∧
        (socketType = "" ∨ protocol = "" ∨
          c ∉ netlink ∧ (c ∈ inet → c ∈ classesOf { protocol }))) ∧
    ((∀ c, c ∈ classesOf { socketType, protocol } ↔
      c ∈ classesOf { socketType } ∨ c ∈ classesOf { protocol }) ↔
        socketType = "" ∨ protocol = "" ∨ AreCombined socketType protocol) := by
  refine ⟨fun resource => nodup_distinct _, ?_⟩
  have hnothing (c : String) : c ∉ classesOf {} := by
    have hnone : classesOf {} = [] := by decide
    simp [hnone]
  by_cases htype : socketType = ""
  · subst htype
    simp [hnothing]
  by_cases hprotocol : protocol = ""
  · subst hprotocol
    simp [hnothing]
  simp only [htype, hprotocol, false_or]
  refine ⟨fun c => mem_classesOf_both_iff htype hprotocol, ?_⟩
  rw [areCombined_iff htype hprotocol]
  refine forall_congr' fun c => ⟨Iff.mpr, fun hall => ⟨fun hboth => ?_, hall⟩⟩
  exact ((mem_classesOf_both_iff htype hprotocol).1 hboth).1

/-- Streams over a named protocol lose a class of the streams, and raw sockets of a netlink protocol
all their classes. -/
theorem streamTcp_not_combined :
    NetResource.parse "type:stream,protocol:tcp" =
      .ok { socketType := "stream", protocol := "tcp" } ∧
    ¬(∀ c, c ∈ classesOf { socketType := "stream", protocol := "tcp" } ↔
      c ∈ classesOf { socketType := "stream" } ∨ c ∈ classesOf { protocol := "tcp" }) ∧
    classesOf { socketType := "raw" } ≠ [] ∧ classesOf { protocol := "route" } ≠ [] ∧
    classesOf { socketType := "raw", protocol := "route" } = [] := by
  refine ⟨toOption_eq_some_iff.1 (by decide +kernel), fun hall => ?_, by decide, by decide,
    by decide⟩
  have hlost := (hall "sctp_socket").2 (.inl (by decide))
  exact absurd hlost (by decide)

end TypeEnforcement.Socket
