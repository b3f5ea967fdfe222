import Lsvmi.Qdisc.Parse

/-!
# The entries after a parse

After a successful `Parse` the entries should be those of the replies.  Replies with one interface
index and handle share an entry, and what an earlier `Parse` stamped before it failed is taken for
the work of the next one.
-/

namespace Lsvmi.Qdisc

open Reasoning List Finmap Function

variable {qi : QdiscInfo}

/-! ## Assignments -/

def Assignment.kind? : Assignment → Option Bytes
  | .kind value => some value
  | _ => none

def Assignment.uint32? : Assignment → Option (QdiscUint32 × UInt32)
  | .uint32 index value => some (index, value)
  | _ => none

def Assignment.uint64? : Assignment → Option (QdiscUint64 × UInt64)
  | .uint64 index value => some (index, value)
  | _ => none

/-- The entry has the values of the assignments, the last one of each field. -/
structure QdiscInfo.Shows (qi : QdiscInfo) (assignments : List Assignment) : Prop where
  kind : ∀ value, (assignments.filterMap Assignment.kind?).getLast? = some value → qi.kind = value
  uint32 : ∀ index value, replay (assignments.filterMap Assignment.uint32?) index = some value →
    qi.uint32 index = value
  uint64 : ∀ index value, replay (assignments.filterMap Assignment.uint64?) index = some value →
    qi.uint64 index = value

/-- The assignments that a reply's attributes ask for, if there is no error among them. -/
def replyAssignments (nl : Netlink) (data : Bytes) : Option (List Assignment) :=
  match nl.unmarshalAttributes (data.drop 20) with
  | .error _ => none
  | .ok attrs =>
    match parseAttrs nl attrs with
    | some (none, assignments) => some assignments
    | _ => none

/-- The entry holds the parent, the kind and the counters of the reply. -/
structure Holds (nl : Netlink) (qi : QdiscInfo) (data : Bytes) : Prop where
  parent : qi.uint32 .parent = replyParent nl data
  shows : ∃ assignments, replyAssignments nl data = some assignments ∧ qi.Shows assignments

def Assignment.IsAttribute (a : Assignment) : Prop :=
  ∀ value, a ≠ .uint32 .parent value ∧ a ≠ .uint32 .handle value

section

variable {nl : Netlink} {qi : QdiscInfo} {assignments : List Assignment} {data : Bytes}

open Assignment

open QdiscInfo

theorem foldl_assign_kind (qi : QdiscInfo) (assignments : List Assignment) :
    (assignments.foldl assign qi).kind =
      (assignments.filterMap kind?).getLast?.getD qi.kind := by
  induction assignments generalizing qi with
  | nil => rfl
  | cons a assignments ih =>
    rw [foldl_cons, ih]
    cases a with
    | uint32 i v => rfl
    | uint64 i v => rfl
    | kind v =>
      show _ = (v :: assignments.filterMap kind?).getLast?.getD qi.kind
      rw [getLast?_cons]
      rfl

theorem foldl_assign_uint32 (qi : QdiscInfo) (assignments : List Assignment) :
    (assignments.foldl assign qi).uint32 = (assignments.filterMap uint32?).foldl
      (fun f e => update f e.1 e.2) qi.uint32 := by
  induction assignments generalizing qi with
  | nil => rfl
  | cons a assignments ih =>
    rw [foldl_cons, ih]
    cases a <;> rfl

theorem foldl_assign_uint64 (qi : QdiscInfo) (assignments : List Assignment) :
    (assignments.foldl assign qi).uint64 = (assignments.filterMap uint64?).foldl
      (fun f e => update f e.1 e.2) qi.uint64 := by
  induction assignments generalizing qi with
  | nil => rfl
  | cons a assignments ih =>
    rw [foldl_cons, ih]
    cases a <;> rfl

theorem foldl_assign_shows (qi : QdiscInfo) (assignments : List Assignment) :
    (assignments.foldl assign qi).Shows assignments where
  kind value h := by
    rw [foldl_assign_kind, h]
    rfl
  uint32 index value h := by
    rw [foldl_assign_uint32, foldl_update_apply, h]
    rfl
  uint64 index value h := by
    rw [foldl_assign_uint64, foldl_update_apply, h]
    rfl

theorem foldl_assign_parent (h : ∀ a ∈ assignments, a.IsAttribute) :
    (assignments.foldl assign qi).uint32 .parent = qi.uint32 .parent := by
  induction assignments generalizing qi with
  | nil => rfl
  | cons a assignments ih =>
    rw [foldl_cons, ih fun b hb => h b (mem_cons_of_mem a hb)]
    have ha := h a mem_cons_self
    cases a with
    | kind v => rfl
    | uint64 i v => rfl
    | uint32 i v =>
      refine update_of_ne (fun hi => ?_) v qi.uint32
      exact (ha v).1 (by rw [hi])

@[simp] theorem assign_ifName (qi : QdiscInfo) (a : Assignment) :
    (qi.assign a).ifName = qi.ifName := by
  cases a <;> rfl

@[simp] theorem foldl_assign_ifName (qi : QdiscInfo) (assignments : List Assignment) :
    (assignments.foldl assign qi).ifName = qi.ifName := by
  induction assignments generalizing qi with
  | nil => rfl
  | cons a assignments ih => rw [foldl_cons, ih, assign_ifName]

/-! ## Attributes -/

theorem parseTCAStats_isAttribute {attr : Attribute} (h : parseTCAStats nl attr = some assignments) :
    ∀ a ∈ assignments, a.IsAttribute := by
  simp only [parseTCAStats, bind, pure, Option.bind_eq_some_iff, Option.some.injEq] at h
  obtain ⟨_, _, _, _, _, _, _, _, _, _, _, _, rfl⟩ := h
  simp [IsAttribute]

theorem parseNested_isAttribute {a : Attribute} (h : parseNested nl a = some assignments) :
    ∀ b ∈ assignments, b.IsAttribute := by
  unfold parseNested at h
  split at h
  · simp only [bind, pure, Option.bind_eq_some_iff, Option.some.injEq] at h
    obtain ⟨_, _, _, _, rfl⟩ := h
    simp [IsAttribute]
  split at h
  · simp only [bind, pure, Option.bind_eq_some_iff, Option.some.injEq] at h
    obtain ⟨_, _, _, _, _, _, _, _, _, _, rfl⟩ := h
    simp [IsAttribute]
  · cases h
    exact nofun

theorem mapM_parseNested_isAttribute {nested : List Attribute} {parts : List (List Assignment)}
    (h : nested.mapM (parseNested nl) = some parts) :
    ∀ part ∈ parts, ∀ a ∈ part, a.IsAttribute := by
  induction nested generalizing parts with
  | nil =>
    rw [mapM_nil] at h
    cases h
    exact nofun
  | cons attr nested ih =>
    rw [mapM_cons] at h
    obtain ⟨first, hfirst, h⟩ := Option.bind_eq_some_iff.mp h
    obtain ⟨rest, hrest, h⟩ := Option.bind_eq_some_iff.mp h
    cases h
    intro part hpart
    cases mem_cons.mp hpart with
    | inl heq => exact heq ▸ parseNested_isAttribute hfirst
    | inr hmem => exact ih hrest part hmem

theorem parseAttr_isAttribute {attr : Attribute} (h : parseAttr nl attr = some (.ok assignments)) :
    ∀ a ∈ assignments, a.IsAttribute := by
  unfold parseAttr parseTCAStats2 at h
  split at h
  · cases h
    simp [IsAttribute]
  split at h
  · split at h
    · cases h
    obtain ⟨parts, hparts, heq⟩ := Option.map_eq_some_iff.mp h
    cases heq
    intro a ha
    obtain ⟨part, hpart, ha⟩ := mem_flatten.mp ha
    exact mapM_parseNested_isAttribute hparts part hpart a ha
  split at h
  · obtain ⟨_, hstats, heq⟩ := Option.map_eq_some_iff.mp h
    cases heq
    exact parseTCAStats_isAttribute hstats
  · cases h
    exact nofun

theorem parseAttrs_isAttribute {attrs : List Attribute} {err : Option String}
    (h : parseAttrs nl attrs = some (err, assignments)) : ∀ a ∈ assignments, a.IsAttribute := by
  induction attrs generalizing err assignments with
  | nil =>
    cases h
    exact nofun
  | cons attr attrs ih =>
    unfold parseAttrs at h
    split at h
    · cases h
    · cases h
      exact nofun
    rename_i first hfirst
    obtain ⟨⟨err', rest⟩, hrest, heq⟩ := Option.map_eq_some_iff.mp h
    cases heq
    intro a ha
    cases mem_append.mp ha with
    | inl ha => exact parseAttr_isAttribute hfirst a ha
    | inr ha => exact ih hrest a ha

end

/-! ## One reply -/

def QdiscInfo.parsed (nl : Netlink) (scanNum : Int64) (qi : QdiscInfo) (data : Bytes)
    (assignments : List Assignment) : QdiscInfo :=
  let qi := (qi.assign (.uint32 .handle (replyKey nl data).handle)).assign
    (.uint32 .parent (replyParent nl data))
  { assignments.foldl QdiscInfo.assign qi with scanNum := scanNum }

section

variable {nl : Netlink} {input : ParseInput} {refreshed : Bool} {scanNum : Int64} {n : Nat}
  {data : Bytes} {msgs : List Bytes} {info info' : Info} {shared shared' : QdiscStatsShared}
  {key : QdiscInfoKey}

theorem parseReply_ok
    (h : parseReply nl input refreshed scanNum n data info shared = some (none, info', shared')) :
    ∃ qi assignments,
      findInfo refreshed (input.interfaces n) (input.refreshTime n) (replyKey nl data) info shared =
        .ok (qi, shared') ∧
      replyAssignments nl data = some assignments ∧
      (∀ a ∈ assignments, a.IsAttribute) ∧
      info' = info.insert (replyKey nl data) (qi.parsed nl scanNum data assignments) := by
  unfold parseReply at h
  split at h
  · cases h
  cases hfind : findInfo refreshed (input.interfaces n) (input.refreshTime n) (replyKey nl data) info
      shared with
  | error err =>
    simp only [hfind] at h
    cases h
  | ok found =>
    cases hattrs : nl.unmarshalAttributes (data.drop 20) with
    | error err =>
      simp only [hfind, hattrs] at h
      cases h
    | ok attrs =>
      simp only [hfind, hattrs] at h
      split at h
      · cases h
      · cases h
      · rename_i assignments hassign
        cases h
        refine ⟨found.1, assignments, rfl, ?_, parseAttrs_isAttribute hassign, rfl⟩
        simp only [replyAssignments, hattrs, hassign]

theorem parseReplies_cons
    (h : parseReplies nl input refreshed scanNum n (data :: msgs) info shared =
      some (none, info', shared')) :
    ∃ info₁ shared₁, parseReply nl input refreshed scanNum n data info shared =
        some (none, info₁, shared₁) ∧
      parseReplies nl input refreshed scanNum (n + 1) msgs info₁ shared₁ =
        some (none, info', shared') := by
  unfold parseReplies at h
  split at h
  · rename_i info₁ shared₁ hfirst
    exact ⟨info₁, shared₁, hfirst, h⟩
  · rename_i hfailed
    exact absurd h (hfailed info' shared')

theorem holds_parsed {assignments : List Assignment}
    (h : replyAssignments nl data = some assignments) (hattr : ∀ a ∈ assignments, a.IsAttribute) :
    Holds nl (qi.parsed nl scanNum data assignments) data where
  parent := by
    refine (foldl_assign_parent hattr).trans ?_
    simp only [QdiscInfo.assign, update_self]
  shows := by
    have hshows := foldl_assign_shows ((qi.assign (.uint32 .handle (replyKey nl data).handle)).assign
      (.uint32 .parent (replyParent nl data))) assignments
    exact ⟨assignments, h, hshows.kind, hshows.uint32, hshows.uint64⟩

/-! ## The loop over the replies -/

/-- What the loop leaves: entries of other keys as they were, stamped entries for the keys of the
replies. -/
structure LoopOk (nl : Netlink) (scanNum : Int64) (msgs : List Bytes) (info info' : Info) :
    Prop where
  other : ∀ key, key ∉ msgs.map (replyKey nl) → info'.lookup key = info.lookup key
  stamped : ∀ key ∈ msgs.map (replyKey nl),
    ∃ qi, info'.lookup key = some qi ∧ qi.scanNum = scanNum
  holds : (msgs.map (replyKey nl)).Nodup →
    ∀ data ∈ msgs, ∃ qi, info'.lookup (replyKey nl data) = some qi ∧ Holds nl qi data

theorem parseReplies_loopOk
    (h : parseReplies nl input refreshed scanNum n msgs info shared = some (none, info', shared')) :
    LoopOk nl scanNum msgs info info' := by
  induction msgs generalizing n info shared with
  | nil =>
    cases h
    exact ⟨fun _ _ => rfl, nofun, nofun⟩
  | cons data msgs ih =>
    obtain ⟨info₁, shared₁, hfirst, hrest⟩ := parseReplies_cons h
    obtain ⟨qi, assignments, -, hassign, hattr, rfl⟩ := parseReply_ok hfirst
    have hloop := ih hrest
    constructor
    · intro key hkey
      rw [map_cons, mem_cons, not_or] at hkey
      rw [hloop.other key hkey.2, lookup_insert_of_ne _ hkey.1]
    · intro key hkey
      by_cases hlater : key ∈ msgs.map (replyKey nl)
      · exact hloop.stamped key hlater
      · -- no later reply touches the entry
        have hfirstKey : key = replyKey nl data := (mem_cons.mp hkey).resolve_right hlater
        rw [hloop.other key hlater, hfirstKey, lookup_insert]
        exact ⟨_, rfl, rfl⟩
    · intro hnodup d hd
      rw [map_cons, nodup_cons] at hnodup
      cases hd with
      | head =>
        rw [hloop.other _ hnodup.1, lookup_insert]
        exact ⟨_, rfl, holds_parsed hassign hattr⟩
      | tail _ hd => exact hloop.holds hnodup.2 d hd

theorem parse_ok (h : parse nl input info shared = some (none, info', shared')) :
    ∃ msgs refreshed info₁ shared₁, input.replies = .ok msgs ∧
      periodicRefresh input shared = .ok refreshed ∧
      parseReplies nl input (shared.refreshDue input.timeNow) (shared.scanNum + 1) 1 msgs info
        refreshed = some (none, info₁, shared₁) ∧
      info' = removeOutOfScope (shared.scanNum + 1) msgs info₁ := by
  unfold parse at h
  split at h
  · cases h
  rename_i msgs hmsgs
  simp only at h
  split at h
  · cases h
  rename_i refreshed hrefresh
  split at h
  · rename_i info₁ shared₁ hloop
    cases h
    exact ⟨msgs, refreshed, info₁, shared₁, hmsgs, hrefresh, hloop, rfl⟩
  · rename_i hfailed
    exact absurd h (hfailed info' shared')

theorem call_parse {s s' : QdiscState} {i : Nat} {err : Option String}
    (hi : s.objects[i]? = some info) (h : s.call nl (.parse i input) = some (err, s')) :
    ∃ info', parse nl input info s.shared = some (err, info', s'.shared) ∧
      s'.objects = s.objects.set i info' := by
  simp only [QdiscState.call, hi] at h
  obtain ⟨⟨err', info', shared'⟩, hparse, heq⟩ := Option.map_eq_some_iff.mp h
  cases heq
  exact ⟨info', hparse, rfl⟩

/-! ## Out of scope entries -/

theorem removeOutOfScope_lookup
    (h : (removeOutOfScope scanNum msgs info).lookup key = some qi) : info.lookup key = some qi := by
  unfold removeOutOfScope at h
  split at h
  · exact (lookup_filterMapEntries_ite.mp h).1
  · exact h

theorem stamped_of_removeOutOfScope (hlen : msgs.length ≠ info.keys.card)
    (h : (removeOutOfScope scanNum msgs info).lookup key = some qi) : qi.scanNum = scanNum := by
  rw [removeOutOfScope, if_pos hlen] at h
  exact not_not.mp (lookup_filterMapEntries_ite.mp h).2

theorem removeOutOfScope_of_stamped (h : info.lookup key = some qi)
    (hstamp : qi.scanNum = scanNum) :
    (removeOutOfScope scanNum msgs info).lookup key = some qi := by
  unfold removeOutOfScope
  split
  · rw [lookup_filterMapEntries, h, Option.bind_some, if_neg (not_not.mpr hstamp)]
  · exact h

theorem mem_of_length_eq (hnodup : (msgs.map (replyKey nl)).Nodup)
    (hmem : ∀ key ∈ msgs.map (replyKey nl), key ∈ info) (hlen : msgs.length = info.keys.card)
    (hkey : key ∈ info) : key ∈ msgs.map (replyKey nl) := by
  have hsub : (msgs.map (replyKey nl)).toFinset ⊆ info.keys := by
    intro k hk
    exact mem_keys.mpr (hmem k (mem_toFinset.mp hk))
  have hcard : info.keys.card ≤ (msgs.map (replyKey nl)).toFinset.card := by
    rw [toFinset_card_of_nodup hnodup, length_map, hlen]
  have heq := Finset.eq_of_subset_of_card_le hsub hcard
  rw [← mem_toFinset, heq]
  exact mem_keys.mpr hkey

/-! ## The result of a parse -/

/-- What a list of replies asks of the entries: one for each reply, with its values, and no
other. -/
structure MatchesReplies (nl : Netlink) (msgs : List Bytes) (info : Info) : Prop where
  holds : ∀ data ∈ msgs, ∃ qi, info.lookup (replyKey nl data) = some qi ∧ Holds nl qi data
  card_eq : info.keys.card = msgs.length
  only : ∀ key ∈ info, key ∈ msgs.map (replyKey nl)

/-- Two replies of a list differ in interface index, handle or parent. -/
def DistinctReplies (nl : Netlink) (msgs : List Bytes) : Prop :=
  (msgs.map fun data => (replyKey nl data, replyParent nl data)).Nodup

/-- Replies that share a key share an entry, which holds only one parent. -/
theorem MatchesReplies.nodup (h : MatchesReplies nl msgs info) (hdistinct : DistinctReplies nl msgs) :
    (msgs.map (replyKey nl)).Nodup := by
  refine hdistinct.of_map.map_on fun d hd d' hd' hkey => ?_
  obtain ⟨qi, hqi, hholds⟩ := h.holds d hd
  obtain ⟨qi', hqi', hholds'⟩ := h.holds d' hd'
  have hsame : qi = qi' := by
    rw [hkey, hqi'] at hqi
    exact (Option.some.inj hqi).symm
  have hparent : replyParent nl d = replyParent nl d' := by
    rw [← hholds.parent, hsame, hholds'.parent]
  refine inj_on_of_nodup_map hdistinct hd hd' ?_
  rw [hkey, hparent]

theorem mem_of_lookup (h : info.lookup key = some qi) : key ∈ info :=
  lookup_isSome.mp (by rw [h]; rfl)

theorem LoopOk.matchesReplies_iff {info₁ : Info} (hloop : LoopOk nl scanNum msgs info info₁)
    (hdistinct : DistinctReplies nl msgs) :
    MatchesReplies nl msgs (removeOutOfScope scanNum msgs info₁) ↔
      (msgs.map (replyKey nl)).Nodup ∧
      ∀ key qi, info.lookup key = some qi → qi.scanNum = scanNum →
        key ∈ msgs.map (replyKey nl) := by
  constructor
  · intro h
    refine ⟨h.nodup hdistinct, fun key qi hqi hstamp => ?_⟩
    by_contra hkey
    -- the entry is not touched by the loop and looks as if it were
    have hleft : info₁.lookup key = some qi := by rw [hloop.other key hkey, hqi]
    exact hkey (h.only key (mem_of_lookup (removeOutOfScope_of_stamped hleft hstamp)))
  · rintro ⟨hnodup, hstale⟩
    have hkept : ∀ data ∈ msgs, ∃ qi,
        (removeOutOfScope scanNum msgs info₁).lookup (replyKey nl data) = some qi ∧
          Holds nl qi data := by
      intro data hdata
      obtain ⟨qi, hqi, hholds⟩ := hloop.holds hnodup data hdata
      obtain ⟨qi', hqi', hstamp⟩ := hloop.stamped _ (mem_map_of_mem hdata)
      obtain rfl : qi' = qi := Option.some.inj (hqi'.symm.trans hqi)
      exact ⟨qi', removeOutOfScope_of_stamped hqi hstamp, hholds⟩
    have hmem : ∀ key ∈ msgs.map (replyKey nl), key ∈ removeOutOfScope scanNum msgs info₁ := by
      intro key hkey
      obtain ⟨data, hdata, rfl⟩ := mem_map.mp hkey
      obtain ⟨qi, hqi, -⟩ := hkept data hdata
      exact mem_of_lookup hqi
    have honly : ∀ key ∈ removeOutOfScope scanNum msgs info₁, key ∈ msgs.map (replyKey nl) := by
      intro key hkey
      by_cases hlen : msgs.length = info₁.keys.card
      · -- the sizes agree and nothing is removed
        have hsame : removeOutOfScope scanNum msgs info₁ = info₁ := if_neg (not_not.mpr hlen)
        rw [hsame] at hkey hmem
        exact mem_of_length_eq hnodup hmem hlen hkey
      obtain ⟨qi, hqi⟩ := Option.isSome_iff_exists.mp (Finmap.lookup_isSome.mpr hkey)
      have hstamp : qi.scanNum = scanNum := stamped_of_removeOutOfScope hlen hqi
      by_contra hother
      have hold : info.lookup key = some qi := by
        rw [← hloop.other key hother]
        exact removeOutOfScope_lookup hqi
      exact hother (hstale key qi hold hstamp)
    refine ⟨hkept, ?_, honly⟩
    have hkeys : (removeOutOfScope scanNum msgs info₁).keys = (msgs.map (replyKey nl)).toFinset := by
      ext key
      rw [Finmap.mem_keys, mem_toFinset]
      exact ⟨honly key, hmem key⟩
    rw [hkeys, toFinset_card_of_nodup hnodup, length_map]

/-- After a successful parse the entries are those of the replies if and only if the replies have
distinct keys and every entry that has the number of this scan already is one of theirs. -/
theorem matches_replies_iff {s s' : QdiscState} {i : Nat} (hi : s.objects[i]? = some info)
    (hmsgs : input.replies = .ok msgs) (hdistinct : DistinctReplies nl msgs)
    (hok : s.call nl (.parse i input) = some (none, s')) :
    (∃ info', s'.objects[i]? = some info' ∧ MatchesReplies nl msgs info') ↔
      (msgs.map (replyKey nl)).Nodup ∧
      ∀ key qi, info.lookup key = some qi → qi.scanNum = s.shared.scanNum + 1 →
        key ∈ msgs.map (replyKey nl) := by
  obtain ⟨info', hparse, hobjects⟩ := call_parse hi hok
  obtain ⟨msgs', refreshed, info₁, shared₁, hmsgs', -, hloop, rfl, -⟩ := parse_ok hparse
  obtain rfl : msgs = msgs' := by
    rw [hmsgs] at hmsgs'
    exact Except.ok.inj hmsgs'
  have hget : s'.objects[i]? = some (removeOutOfScope (s.shared.scanNum + 1) msgs info₁) := by
    rw [hobjects]
    exact getElem?_set_self (List.getElem?_eq_some_iff.mp hi).1
  rw [← (parseReplies_loopOk hloop).matchesReplies_iff hdistinct, hget]
  simp only [Option.some.injEq, exists_eq_left']

end

/-! ## Two qdiscs of one interface -/

def littleEndian (b : Bytes) : Nat := b.foldr (fun x n => x.toNat + 256 * n) 0

/-- A decoder for replies that have the kind and no other attribute. -/
def kindOnly : Netlink where
  uint32 b := UInt32.ofNat (littleEndian b)
  uint64 b := UInt64.ofNat (littleEndian b)
  string b := b
  unmarshalAttributes b := .ok [⟨tcaKind, b, []⟩]

def replyOf (ifIndex handle parent : UInt8) (kind : Bytes) : Bytes :=
  [0, 0, 0, 0, ifIndex, 0, 0, 0, handle, 0, 0, 0, parent, 0, 0, 0, 0, 0, 0, 0] ++ kind

def inputOf (msgs : List Bytes) (timeNow : Int) (ifas : List Interface) : ParseInput :=
  ⟨.ok msgs, timeNow, fun _ => .ok ifas, fun _ => timeNow⟩

def rootAndChild : List Bytes := [replyOf 1 1 0 (utf8 "mq"), replyOf 1 0 1 (utf8 "fq")]

def rootAndOther : List Bytes := [replyOf 1 1 0 (utf8 "mq"), replyOf 1 7 1 (utf8 "htb")]

/-- The object has parsed another list before; one of its qdiscs is gone, and one is new. -/
theorem matches_replies_root_and_child : ∃ s s' info',
    QdiscState.new.call kindOnly (.parse 0 (inputOf rootAndOther 0 [⟨1, utf8 "lo"⟩])) =
      some (none, s) ∧
    s.call kindOnly (.parse 0 (inputOf rootAndChild 0 [⟨1, utf8 "lo"⟩])) = some (none, s') ∧
    s'.objects[0]? = some info' ∧ MatchesReplies kindOnly rootAndChild info' := by
  obtain ⟨s, s', info, hs, hinfo, hstamp, hs'⟩ : ∃ s s' info,
      QdiscState.new.call kindOnly (.parse 0 (inputOf rootAndOther 0 [⟨1, utf8 "lo"⟩])) =
        some (none, s) ∧
      s.objects[0]? = some info ∧
      (∀ key ∈ info.keys, (info.lookup key).all fun qi => qi.scanNum ≠ s.shared.scanNum + 1) ∧
      s.call kindOnly (.parse 0 (inputOf rootAndChild 0 [⟨1, utf8 "lo"⟩])) = some (none, s') :=
    ⟨_, _, _, rfl, rfl, by decide, rfl⟩
  have hdistinct : DistinctReplies kindOnly rootAndChild := by
    unfold DistinctReplies
    decide
  have hcondition : (rootAndChild.map (replyKey kindOnly)).Nodup ∧
      ∀ key qi, info.lookup key = some qi → qi.scanNum = s.shared.scanNum + 1 →
        key ∈ rootAndChild.map (replyKey kindOnly) := by
    refine ⟨by decide, fun key qi h hscan => ?_⟩
    have hother := hstamp key (Finmap.mem_keys.mpr (mem_of_lookup h))
    rw [h] at hother
    exact absurd hscan (of_decide_eq_true hother)
  obtain ⟨info', hinfo', hmatches⟩ := (matches_replies_iff hinfo rfl hdistinct hs').mpr hcondition
  exact ⟨s, s', info', hs, hs', hinfo', hmatches⟩

def twoChildren : List Bytes := [replyOf 1 0 1 (utf8 "fq"), replyOf 1 0 2 (utf8 "fq")]

/-- Two children without a handle of their own end up in one entry. -/
theorem children_without_handle_share_entry : ∃ s', DistinctReplies kindOnly twoChildren ∧
    QdiscState.new.call kindOnly (.parse 0 (inputOf twoChildren 0 [⟨1, utf8 "lo"⟩])) =
      some (none, s') ∧
    ¬ ∃ info', s'.objects[0]? = some info' ∧ MatchesReplies kindOnly twoChildren info' := by
  have hok : ∃ s',
      QdiscState.new.call kindOnly (.parse 0 (inputOf twoChildren 0 [⟨1, utf8 "lo"⟩])) =
        some (none, s') := ⟨_, rfl⟩
  obtain ⟨s', hs'⟩ := hok
  have hdistinct : DistinctReplies kindOnly twoChildren := by
    unfold DistinctReplies
    decide
  refine ⟨s', hdistinct, hs', fun ⟨info', _, hmatches⟩ => ?_⟩
  have hnodup : ¬ (twoChildren.map (replyKey kindOnly)).Nodup := by decide
  exact hnodup (hmatches.nodup hdistinct)

end Lsvmi.Qdisc
