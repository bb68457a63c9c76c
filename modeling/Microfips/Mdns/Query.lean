import Mathlib.Data.List.Forall2
import Microfips.Data.BigEndian
import Microfips.Data.DnsName
import Microfips.Data.Fallible
import Microfips.Data.Text

/-!
# Queries that the advert answers

The receiving side of the mDNS responder.  A packet from the network is a query for this endpoint
when one of its questions asks for the service, for the instance or for the host.  The names of a
question may be compressed, and what the pointers of a hostile packet lead to is any byte of it.
-/

namespace Microfips
namespace Mdns

inductive MdnsParseError where
  | truncated
  | notAResponse
  | incompleteAdvert
  deriving DecidableEq

def typeA : UInt16 := 1

def typePtr : UInt16 := 12

def typeTxt : UInt16 := 16

def typeSrv : UInt16 := 33

def typeAny : UInt16 := 255

def readU16 (packet : Bytes) (off : ℕ) : Except MdnsParseError UInt16 :=
  if off + 2 ≤ packet.length then
    .ok (UInt16.ofNat (Bytes.toNatBe (Bytes.slice off (off + 2) packet)))
  else
    .error .truncated

def skipName (packet : Bytes) (off : ℕ) : Except MdnsParseError ℕ :=
  match _h : packet[off]? with
  | none => .error .truncated
  | some len =>
      if len = 0 then
        .ok (off + 1)
      else if len &&& 0xC0 = 0xC0 then
        if packet.length < off + 2 then .error .truncated else .ok (off + 2)
      else if 63 < len.toNat then
        .error .truncated
      else
        skipName packet (off + (1 + len.toNat))
  termination_by packet.length - off
  decreasing_by
    have hoff : off < packet.length := (List.getElem?_eq_some_iff.mp _h).1
    omega

def toAsciiLowercase (x : UInt8) : UInt8 :=
  if 65 ≤ x ∧ x ≤ 90 then x + 32 else x

def EqIgnoreAsciiCase (a b : Bytes) : Prop :=
  a.map toAsciiLowercase = b.map toAsciiLowercase

instance decidableEqIgnoreAsciiCase (a b : Bytes) : Decidable (EqIgnoreAsciiCase a b) :=
  inferInstanceAs (Decidable (a.map toAsciiLowercase = b.map toAsciiLowercase))

/-- The loop of `name_is`.  It ends because a round takes one of the expected labels or one of the
eight hops. -/
def nameIsLoop (packet : Bytes) (expect : List Bytes) (off idx hops : ℕ) :
    Except (Fault Empty) Bool :=
  match packet[off]? with
  | none => .ok false
  | some len =>
      if len = 0 then
        .ok (idx = expect.length)
      else if len &&& 0xC0 = 0xC0 then
        match packet[off + 1]? with
        | none => .ok false
        | some lo =>
            if 8 < hops + 1 then
              .ok false
            else
              nameIsLoop packet expect ((len &&& 0x3F).toNat <<< 8 ||| lo.toNat) idx (hops + 1)
      else if packet.length < off + 1 + len.toNat then
        .ok false
      else if expect.length ≤ idx then
        .ok false
      else
        match expect[idx]? with
        | none => .error .panic
        | some want =>
            let label := Bytes.slice (off + 1) (off + 1 + len.toNat) packet
            if label.length ≠ want.length ∨ ¬ EqIgnoreAsciiCase label want then
              .ok false
            else
              nameIsLoop packet expect (off + (1 + len.toNat)) (idx + 1) hops
  termination_by (expect.length - idx) + (8 - hops)

def nameIs (packet : Bytes) (off : ℕ) (first : Option Bytes) (labels : List Bytes) :
    Except (Fault Empty) Bool :=
  let expect := first.toList ++ labels
  if expect.length ≤ 4 then nameIsLoop packet expect off 0 0 else .error .panic

def serviceLabels : List Bytes :=
  [Bytes.ofString "_fips", Bytes.ofString "_udp", Bytes.ofString "local"]

structure FipsQuery where
  id : UInt16
  deriving DecidableEq

def asked (packet : Bytes) (inst host : String) (off : ℕ) (qtype : UInt16) :
    Except (Fault Empty) Bool := do
  let service ← nameIs packet off none serviceLabels
  let inst ← nameIs packet off (some (Bytes.ofString inst)) serviceLabels
  let hst ← nameIs packet off (some (Bytes.ofString host)) [Bytes.ofString "local"]
  return (service && (qtype == typePtr || qtype == typeAny)) ||
    (inst && (qtype == typeSrv || qtype == typeTxt || qtype == typeAny)) ||
    (hst && (qtype == typeA || qtype == typeAny))

/-- The loop of `parse_fips_query`, with the number of questions that are left.  It returns `none`
where the function does. -/
def questionLoop (packet : Bytes) (inst host : String) :
    ℕ → ℕ → Bool → Except (Fault Empty) (Option Bool)
  | 0, _, hit => .ok (some hit)
  | n + 1, off, hit =>
      match skipName packet off with
      | .error _ => .ok none
      | .ok last =>
          match readU16 packet last with
          | .error _ => .ok none
          | .ok qtype => do
              let now ← asked packet inst host off qtype
              questionLoop packet inst host n (last + 4) (if now then true else hit)

def parseFipsQuery (packet : Bytes) (inst host : String) :
    Except (Fault Empty) (Option FipsQuery) :=
  match readU16 packet 0 with
  | .error _ => .ok none
  | .ok id =>
      match readU16 packet 2 with
      | .error _ => .ok none
      | .ok flags =>
          -- a response, not a query
          if flags &&& 0x8000 ≠ 0 then
            .ok none
          else
            match readU16 packet 4 with
            | .error _ => .ok none
            | .ok qd => do
                let hit ← questionLoop packet inst host qd.toNat 12 false
                return if hit = some true then some ⟨id⟩ else none

variable {packet : Bytes} {off last idx hops n : ℕ} {expect : List Bytes} {inst host : String}

theorem skipName_eq_ok_iff : skipName packet off = .ok last ↔ Dns.Skips packet off last := by
  fun_induction skipName packet off with
  | case1 off hbyte => simp [Dns.not_skips_of_none hbyte]
  | case2 off hbyte => rw [Dns.skips_iff_of_zero hbyte, Except.ok.injEq, eq_comm]
  | case3 off hi hbyte _ hpointer hshort =>
      simp [Dns.skips_iff_of_pointer hbyte hpointer, hshort.not_ge]
  | case4 off hi hbyte _ hpointer hshort =>
      rw [Dns.skips_iff_of_pointer hbyte hpointer, Except.ok.injEq, eq_comm]
      exact (and_iff_right (not_lt.mp hshort)).symm
  | case5 off len hbyte hpos hpointer hlong =>
      simp [Dns.skips_iff_of_label hbyte hpos hpointer, hlong.not_ge]
  | case6 off len hbyte hpos hpointer hlong ih =>
      rw [ih, Dns.skips_iff_of_label hbyte hpos hpointer, ← Nat.add_assoc]
      exact (and_iff_right (not_lt.mp hlong)).symm

/-- The name at an offset, read through at most `budget` pointers, is the expected one. -/
def Named (packet : Bytes) (budget off : ℕ) (expect : List Bytes) : Prop :=
  ∃ hops ≤ budget, ∃ labels, Dns.NameAt packet hops off labels ∧
    List.Forall₂ EqIgnoreAsciiCase labels expect

section Named

variable {budget : ℕ} {len hi lo : UInt8} {want : Bytes}

theorem named_iff_of_zero (h : packet[off]? = some 0) :
    Named packet budget off expect ↔ expect = [] := by
  simp only [Named, Dns.nameAt_iff_of_zero h]
  constructor
  · rintro ⟨_, _, _, ⟨_, rfl⟩, hsame⟩
    exact List.forall₂_nil_left_iff.mp hsame
  · rintro rfl
    exact ⟨0, budget.zero_le, [], ⟨rfl, rfl⟩, .nil⟩

theorem not_named_of_pointer (h : packet[off]? = some hi) (hpointer : Dns.IsPointer hi) :
    ¬ Named packet 0 off expect := by
  simp [Named, Dns.nameAt_iff_of_pointer h hpointer]

theorem named_iff_of_pointer (h : packet[off]? = some hi) (hpointer : Dns.IsPointer hi)
    (hlo : packet[off + 1]? = some lo) :
    Named packet (budget + 1) off expect ↔ Named packet budget (Dns.target hi lo) expect := by
  simp only [Named, Dns.nameAt_iff_of_pointer h hpointer, hlo, Option.some.injEq]
  constructor
  · rintro ⟨_, hle, labels, ⟨_, rest, rfl, rfl, hname⟩, hsame⟩
    exact ⟨rest, Nat.le_of_succ_le_succ hle, labels, hname, hsame⟩
  · rintro ⟨rest, hle, labels, hname, hsame⟩
    exact ⟨rest + 1, Nat.succ_le_succ hle, labels, ⟨lo, rest, rfl, rfl, hname⟩, hsame⟩

theorem not_named_nil_of_label (h : packet[off]? = some len) (hpos : len ≠ 0)
    (hpointer : ¬ Dns.IsPointer len) : ¬ Named packet budget off [] := by
  simp [Named, Dns.nameAt_iff_of_label h hpos hpointer]

theorem named_cons_iff_of_label (h : packet[off]? = some len) (hpos : len ≠ 0)
    (hpointer : ¬ Dns.IsPointer len) (hin : off + 1 + len.toNat ≤ packet.length) :
    Named packet budget off (want :: expect) ↔ len.toNat ≤ 63 ∧
      EqIgnoreAsciiCase (Bytes.slice (off + 1) (off + 1 + len.toNat) packet) want ∧
        Named packet budget (off + 1 + len.toNat) expect := by
  simp only [Named, Dns.nameAt_iff_of_label h hpos hpointer]
  constructor
  · rintro ⟨hops, hle, _, ⟨hlen, _, rest, rfl, hname⟩, hsame⟩
    obtain ⟨hfirst, hsame⟩ := List.forall₂_cons.mp hsame
    exact ⟨hlen, hfirst, hops, hle, rest, hname, hsame⟩
  · rintro ⟨hlen, hfirst, hops, hle, rest, hname, hsame⟩
    exact ⟨hops, hle, _, ⟨hlen, hin, rest, rfl, hname⟩, .cons hfirst hsame⟩

end Named

theorem EqIgnoreAsciiCase.length_eq {a b : Bytes} (h : EqIgnoreAsciiCase a b) :
    a.length = b.length := by
  simpa using congrArg List.length h

variable (packet off) in
/-- A round of the loop takes a label from the expected ones or a pointer from the budget.  A label
of more than 63 bytes, which the loop does not reject itself, is not an expected one. -/
theorem nameIsLoop_spec (hexpect : ∀ want ∈ expect, want.length ≤ 63) (hidx : idx ≤ expect.length)
    (hhops : hops ≤ 8) : ∃ b, nameIsLoop packet expect off idx hops = .ok b ∧
      (b = true ↔ Named packet (8 - hops) off (expect.drop idx)) := by
  fun_induction nameIsLoop packet expect off idx hops with
  | case1 off idx hops hbyte =>
      refine ⟨false, rfl, ?_⟩
      simp [Named, Dns.not_nameAt_of_none hbyte]
  | case2 off idx hops hbyte =>
      refine ⟨_, rfl, ?_⟩
      rw [named_iff_of_zero hbyte, decide_eq_true_iff, List.drop_eq_nil_iff]
      exact ⟨fun h => h.ge, fun h => le_antisymm hidx h⟩
  | case3 off idx hops hi hbyte _ hpointer hlo =>
      refine ⟨false, rfl, ?_⟩
      simp [Named, Dns.nameAt_iff_of_pointer hbyte hpointer, hlo]
  | case4 off idx hops hi hbyte _ hpointer lo hlo hmany =>
      refine ⟨false, rfl, ?_⟩
      rw [show 8 - hops = 0 by omega]
      simp [not_named_of_pointer hbyte hpointer]
  | case5 off idx hops hi hbyte _ hpointer lo hlo hmany ih =>
      obtain ⟨b, hloop, hb⟩ := ih hidx (by omega)
      refine ⟨b, hloop, hb.trans ?_⟩
      rw [show 8 - hops = 8 - (hops + 1) + 1 by omega, named_iff_of_pointer hbyte hpointer hlo]
      rfl
  | case6 off idx hops len hbyte hpos hpointer hshort =>
      refine ⟨false, rfl, ?_⟩
      simp [Named, Dns.nameAt_iff_of_label hbyte hpos hpointer, hshort.not_ge]
  | case7 off idx hops len hbyte hpos hpointer hin hdone =>
      refine ⟨false, rfl, ?_⟩
      rw [List.drop_eq_nil_of_le hdone]
      simp [not_named_nil_of_label hbyte hpos hpointer]
  | case8 off idx hops len hbyte hpos hpointer hin hmore hnone =>
      exact absurd (List.getElem?_eq_none_iff.mp hnone) hmore
  | case9 off idx hops len hbyte hpos hpointer hin hmore want hwant label hdiffers =>
      refine ⟨false, rfl, ?_⟩
      obtain ⟨hlt, rfl⟩ := List.getElem?_eq_some_iff.mp hwant
      rw [List.drop_eq_getElem_cons hlt,
        named_cons_iff_of_label hbyte hpos hpointer (not_lt.mp hin)]
      have hnot : ¬ EqIgnoreAsciiCase label expect[idx] :=
        fun hsame => hdiffers.elim (fun h => h hsame.length_eq) fun h => h hsame
      simp [label, hnot]
  | case10 off idx hops len hbyte hpos hpointer hin hmore want hwant label hdiffers ih =>
      obtain ⟨b, hloop, hb⟩ := ih (by omega) hhops
      refine ⟨b, hloop, hb.trans ?_⟩
      obtain ⟨hlt, rfl⟩ := List.getElem?_eq_some_iff.mp hwant
      obtain ⟨hlength, hsame⟩ := not_or.mp hdiffers
      have hlen : len.toNat ≤ 63 := by
        have hlabel : label.length = len.toNat := by
          rw [Bytes.slice_length (not_lt.mp hin)]
          omega
        rw [← hlabel, not_not.mp hlength]
        exact hexpect _ (List.getElem_mem hlt)
      rw [List.drop_eq_getElem_cons hlt,
        named_cons_iff_of_label hbyte hpos hpointer (not_lt.mp hin), ← Nat.add_assoc]
      exact ⟨fun h => ⟨hlen, not_not.mp hsame, h⟩, fun h => h.2.2⟩

variable (packet off) in
theorem nameIs_spec (first : Option Bytes) (labels : List Bytes)
    (hroom : (first.toList ++ labels).length ≤ 4)
    (hexpect : ∀ want ∈ first.toList ++ labels, want.length ≤ 63) :
    ∃ b, nameIs packet off first labels = .ok b ∧
      (b = true ↔ Named packet 8 off (first.toList ++ labels)) := by
  obtain ⟨b, hloop, hb⟩ := nameIsLoop_spec packet off hexpect (Nat.zero_le _) (Nat.zero_le 8)
  refine ⟨b, ?_, hb⟩
  rw [nameIs, if_pos hroom, hloop]

def Answers (packet : Bytes) (inst host : String) (question : ℕ × UInt16) : Prop :=
  (Named packet 8 question.1 serviceLabels ∧ (question.2 = typePtr ∨ question.2 = typeAny)) ∨
    (Named packet 8 question.1 (Bytes.ofString inst :: serviceLabels) ∧
      (question.2 = typeSrv ∨ question.2 = typeTxt ∨ question.2 = typeAny)) ∨
    (Named packet 8 question.1 [Bytes.ofString host, Bytes.ofString "local"] ∧
      (question.2 = typeA ∨ question.2 = typeAny))

/-- The questions from an offset on, each by the offset of its name and its type. -/
inductive Questions (packet : Bytes) : ℕ → ℕ → List (ℕ × UInt16) → Prop
  | nil {off : ℕ} : Questions packet 0 off []
  | cons {n off last : ℕ} {qtype : UInt16} {questions : List (ℕ × UInt16)}
      (hname : Dns.Skips packet off last) (htype : readU16 packet last = .ok qtype)
      (hrest : Questions packet n (last + 4) questions) :
      Questions packet (n + 1) off ((off, qtype) :: questions)

theorem questions_succ_iff {questions : List (ℕ × UInt16)} :
    Questions packet (n + 1) off questions ↔ ∃ last qtype rest, skipName packet off = .ok last ∧
      readU16 packet last = .ok qtype ∧ Questions packet n (last + 4) rest ∧
        questions = (off, qtype) :: rest := by
  constructor
  · rintro (_ | ⟨hname, htype, hrest⟩)
    exact ⟨_, _, _, skipName_eq_ok_iff.mpr hname, htype, hrest, rfl⟩
  · rintro ⟨last, qtype, rest, hname, htype, hrest, rfl⟩
    exact .cons (skipName_eq_ok_iff.mp hname) htype hrest

theorem length_serviceLabels_le : ∀ want ∈ serviceLabels, want.length ≤ 63 := by
  simp only [serviceLabels, List.forall_mem_cons]
  exact ⟨by decide, by decide, by decide, List.forall_mem_nil _⟩

section Loop

variable (hinst : (Bytes.ofString inst).length ≤ 63) (hhost : (Bytes.ofString host).length ≤ 63)

include hinst hhost

variable (packet off) in
theorem asked_spec (qtype : UInt16) :
    ∃ b, asked packet inst host off qtype = .ok b ∧
      (b = true ↔ Answers packet inst host (off, qtype)) := by
  have hlocal : ∀ want ∈ [Bytes.ofString "local"], want.length ≤ 63 := by
    rintro _ (_ | ⟨_, ⟨⟩⟩)
    decide
  obtain ⟨s, hs, hs'⟩ := nameIs_spec packet off none serviceLabels (by decide)
    length_serviceLabels_le
  obtain ⟨i, hi, hi'⟩ := nameIs_spec packet off (some (Bytes.ofString inst)) serviceLabels
    (by simp [serviceLabels]) (List.forall_mem_cons.mpr ⟨hinst, length_serviceLabels_le⟩)
  obtain ⟨h, hh, hh'⟩ := nameIs_spec packet off (some (Bytes.ofString host))
    [Bytes.ofString "local"] (by simp) (List.forall_mem_cons.mpr ⟨hhost, hlocal⟩)
  refine ⟨_, by rw [asked, hs, hi, hh]; rfl, ?_⟩
  simp only [Option.toList_none, Option.toList_some, List.nil_append, List.cons_append]
    at hs' hi' hh'
  simp only [Answers, ← hs', ← hi', ← hh', Bool.or_eq_true, Bool.and_eq_true, beq_iff_eq, or_assoc]

variable (packet n off) in
/-- What is left of the loop reads the questions that are left, and its result is whether it was
hit before or is hit by one of them. -/
theorem questionLoop_spec (hit : Bool) :
    ∃ r, questionLoop packet inst host n off hit = .ok r ∧
      ∀ b, r = some b ↔ ∃ questions, Questions packet n off questions ∧
        (b = true ↔ hit = true ∨ ∃ q ∈ questions, Answers packet inst host q) := by
  induction n generalizing off hit with
  | zero =>
      refine ⟨some hit, rfl, fun b => ?_⟩
      constructor
      · rintro ⟨⟩
        exact ⟨[], .nil, by simp⟩
      · rintro ⟨_, ⟨⟩, hb⟩
        have heq : b = hit := Bool.eq_iff_iff.mpr (by simpa using hb)
        rw [heq]
  | succ n ih =>
      rw [questionLoop]
      simp only [questions_succ_iff]
      rcases hskip : skipName packet off with e | last
      · exact ⟨none, rfl, fun b => by simp⟩
      dsimp only
      rcases htype : readU16 packet last with e | qtype
      · exact ⟨none, rfl, fun b => by simp [htype]⟩
      dsimp only
      obtain ⟨now, hasked, hnow⟩ := asked_spec packet off hinst hhost qtype
      obtain ⟨r, hloop, hr⟩ := ih (last + 4) (if now then true else hit)
      refine ⟨r, by rw [hasked]; exact hloop, fun b => ?_⟩
      have hhit : (if now then true else hit) = true ↔
          Answers packet inst host (off, qtype) ∨ hit = true := by
        rw [← hnow]
        cases now <;> simp
      rw [hr b, hhit]
      constructor
      · rintro ⟨rest, hrest, hb⟩
        refine ⟨_, ⟨last, qtype, rest, rfl, htype, hrest, rfl⟩, hb.trans ?_⟩
        rw [List.exists_mem_cons_iff, or_assoc, or_left_comm]
      · rintro ⟨_, ⟨_, _, rest, hlast, htype', hrest, rfl⟩, hb⟩
        cases hlast
        cases htype.symm.trans htype'
        refine ⟨rest, hrest, hb.trans ?_⟩
        rw [List.exists_mem_cons_iff, or_assoc, or_left_comm]

end Loop

def IsQuery (packet : Bytes) (id : UInt16) : Prop :=
  readU16 packet 0 = .ok id ∧ ∃ flags, readU16 packet 2 = .ok flags ∧ flags &&& 0x8000 = 0

/-- Any packet is read without a panic.  It is taken for a query exactly when it is one, all of its
questions can be read, and one of them asks for what is advertised here. -/
theorem parseFipsQuery_iff (packet : Bytes) (inst host : String)
    (hinst : (Bytes.ofString inst).length ≤ 63) (hhost : (Bytes.ofString host).length ≤ 63) :
    ∃ r, parseFipsQuery packet inst host = .ok r ∧
      ∀ id, r = some ⟨id⟩ ↔ IsQuery packet id ∧ ∃ qd questions, readU16 packet 4 = .ok qd ∧
        Questions packet qd.toNat 12 questions ∧ ∃ q ∈ questions, Answers packet inst host q := by
  rw [parseFipsQuery]
  unfold IsQuery
  rcases hid : readU16 packet 0 with e | id
  · exact ⟨none, rfl, fun _ => by simp⟩
  dsimp only
  rcases hflags : readU16 packet 2 with e | flags
  · exact ⟨none, rfl, fun _ => by simp⟩
  dsimp only
  split
  · rename_i hresponse
    exact ⟨none, rfl, fun _ => by simp [hresponse]⟩
  rename_i hquery
  rcases hqd : readU16 packet 4 with e | qd
  · exact ⟨none, rfl, fun _ => by simp⟩
  dsimp only
  obtain ⟨r, hloop, hr⟩ := questionLoop_spec packet 12 qd.toNat hinst hhost false
  refine ⟨_, by rw [hloop]; rfl, fun id' => ?_⟩
  have hhit : r = some true ↔ ∃ questions, Questions packet qd.toNat 12 questions ∧
      ∃ q ∈ questions, Answers packet inst host q := by
    simpa using hr true
  have hsome : (if r = some true then some (⟨id⟩ : FipsQuery) else none) = some ⟨id'⟩ ↔
      id = id' ∧ r = some true := by
    split <;> simp_all
  rw [hsome, hhit]
  constructor
  · rintro ⟨rfl, questions, hquestions, hanswers⟩
    exact ⟨⟨rfl, flags, rfl, not_not.mp hquery⟩, qd, questions, rfl, hquestions, hanswers⟩
  · rintro ⟨⟨hid, _⟩, _, questions, hqd, hquestions, hanswers⟩
    cases hid
    cases hqd
    exact ⟨rfl, questions, hquestions, hanswers⟩

def compressedQuery : Bytes :=
  [0, 2, 0, 0, 0, 2, 0, 0, 0, 0, 0, 0] ++
    [5, 95, 102, 105, 112, 115, 4, 95, 117, 100, 112, 5, 76, 79, 67, 65, 76, 0, 0, 1, 0, 1] ++
    [0xC0, 12, 0, 255, 0, 1]

/-- The second question is hit through its pointer, and in capital letters. -/
theorem parseFipsQuery_iff_compressed : (Bytes.ofString "i").length ≤ 63 ∧
    (Bytes.ofString "h").length ≤ 63 ∧ ∃ r, parseFipsQuery compressedQuery "i" "h" = .ok r ∧
      r = some ⟨2⟩ := by
  have hskips : Dns.Skips compressedQuery 12 30 :=
    .label rfl (by decide) (by decide) <| .label rfl (by decide) (by decide) <|
      .label rfl (by decide) (by decide) <| .root rfl
  have hname : ∃ labels, Dns.NameAt compressedQuery 0 12 labels ∧
      List.Forall₂ EqIgnoreAsciiCase labels serviceLabels :=
    ⟨_, .label rfl (by decide) (by decide) (by decide) <|
        .label rfl (by decide) (by decide) (by decide) <|
        .label rfl (by decide) (by decide) (by decide) <| .root rfl,
      .cons (by decide) (.cons (by decide) (.cons (by decide) .nil))⟩
  have hnamed : Named compressedQuery 8 34 serviceLabels := by
    obtain ⟨labels, hname, hsame⟩ := hname
    exact ⟨1, by decide, labels, .pointer rfl rfl rfl hname, hsame⟩
  refine ⟨by decide, by decide, ?_⟩
  obtain ⟨r, hr, hiff⟩ := parseFipsQuery_iff compressedQuery "i" "h" (by decide) (by decide)
  refine ⟨r, hr, (hiff 2).mpr ⟨⟨rfl, 0, rfl, rfl⟩, 2, [(12, 1), (34, 255)], rfl, ?_⟩⟩
  refine ⟨.cons hskips rfl (.cons (.pointer rfl rfl rfl) rfl .nil), (34, 255), ?_, ?_⟩
  · exact .tail _ (.head _)
  · exact .inl ⟨hnamed, .inr rfl⟩

end Mdns
end Microfips
