import CanyonOS.Gateway.Bedrock
import CanyonOS.Lib.StableSort
import CanyonOS.Operator.Rollout

/-!
# Two publishers of the routing table

Core's `publish_routing_snapshot` and the operator's `PublishRouting`, over one content of Redis.
-/

namespace CanyonOS.Operator.PublishRouting

abbrev ReplicaId := String

/-- A JSON text, as it is stored. -/
abbrev Text := List Char

structure Agent where
  name : AgentName
  stateful : Bool := false
deriving DecidableEq

/-- `agent_instance:<id>`. A record that is not there has no field. -/
structure ReplicaRecord where
  address : Option Address := none
  createdAt : Option String := none
  drainingAt : Option String := none

structure Table where
  /-- `routing_table:agents` -/
  agents : Finset AgentName := ∅
  stateful : AgentName → Option String := fun _ => none
  addresses : AgentName → Option Text := fun _ => none
  replicas : AgentName → Option Text := fun _ => none

structure Redis where
  table : Table := {}
  /-- `agent:<name>:instances` -/
  instances : AgentName → Finset ReplicaId := fun _ => ∅
  /-- the ids of the keys `agent_instance:*` -/
  recordIds : Finset ReplicaId := ∅
  records : ReplicaId → ReplicaRecord := fun _ => {}
  /-- `operator:<name>:addresses` -/
  tracked : AgentName → Finset Address := fun _ => ∅

/-- What `SMEMBERS` and `SCAN` answer, in whatever order they do. -/
structure Answers (redis : Redis) where
  instances : AgentName → List ReplicaId
  tracked : AgentName → List Address
  scanned : List ReplicaId
  nodup : ∀ name, (instances name).Nodup
  toFinset_instances : ∀ name, (instances name).toFinset = redis.instances name
  toFinset_tracked : ∀ name, (tracked name).toFinset = redis.tracked name
  toFinset_scanned : scanned.toFinset = redis.recordIds

/-! ### Times -/

/-- The digits of a decimal, and of the fraction behind its point. -/
def mantissa (text : List Char) : Option ℚ :=
  let whole := text.takeWhile (· ≠ '.')
  match text.dropWhile (· ≠ '.') with
  | [] => (digits whole).map Nat.cast
  | _ :: fraction => do
      let integral ← digits whole
      let parts ← digits fraction
      pure (integral + parts / 10 ^ fraction.length)

def exponent : List Char → Option Int
  | '-' :: rest => (digits rest).map fun value => -(value : Int)
  | '+' :: rest => (digits rest).map Int.ofNat
  | rest => (digits rest).map Int.ofNat

def unsigned (text : List Char) : Option ℚ :=
  match text.dropWhile (· ≠ 'e') with
  | [] => mantissa text
  | _ :: rest => do
      let value ← mantissa (text.takeWhile (· ≠ 'e'))
      let power ← exponent rest
      pure (value * 10 ^ power)

/-- The number a decimal text writes, in the notation `str` of a float has. -/
def decimal (text : String) : Option ℚ :=
  match text.toList with
  | '-' :: rest => (unsigned rest).map fun value => -value
  | rest => unsigned rest

-- `nearest` gives the double nearest to a number
variable (nearest : ℚ → ℚ)

/-- `float` of a decimal; it raises on a text that writes none. -/
def float (text : String) : Option ℚ :=
  (decimal text).map nearest

/-- `strconv.ParseFloat` of a decimal, its error dropped. -/
def parseFloat (text : String) : ℚ :=
  ((decimal text).map nearest).getD 0

/-! ### Encoding -/

def joined : List Text → Text
  | [] => []
  | [item] => item
  | item :: items => item ++ ", ".toList ++ joined items

/-- `json.dumps` of a list of strings. -/
def dumps (addresses : List Address) : Text :=
  "[".toList ++
    joined (addresses.map fun address => Gateway.Bedrock.quote (CodePoints.ofString address)) ++
    "]".toList

/-- A character as `json.Marshal` writes it in a string. -/
def marshalChar (char : Char) : Text :=
  if char = '"' then "\\\"".toList
  else if char = '\\' then "\\\\".toList
  else if char.toNat = 0x08 then "\\b".toList
  else if char.toNat = 0x09 then "\\t".toList
  else if char.toNat = 0x0A then "\\n".toList
  else if char.toNat = 0x0C then "\\f".toList
  else if char.toNat = 0x0D then "\\r".toList
  else if char.toNat < 0x20 ∨ char ∈ ['<', '>', '&'] ∨ char.toNat ∈ [0x2028, 0x2029] then
    -- what HTML and JavaScript give a meaning to
    Gateway.Bedrock.unicodeEscape char.toNat
  else [char]

def marshal (address : Address) : Text :=
  "\"".toList ++ address.toList.flatMap marshalChar ++ "\"".toList

def addressesJson (addresses : List Address) : Text :=
  "[".toList ++ joined (addresses.map marshal) ++ "]".toList

/-! ### Core -/

section Core

variable (redis : Redis) (answers : Answers redis)

/-- The ids of the records listed; an unfinished launch has no address. -/
def listReplicas (agentName : AgentName) : List ReplicaId :=
  let ids := if agentName = "" then answers.scanned else answers.instances agentName
  (ids.insertionSort (· ≤ ·)).filter fun id => ((redis.records id).address.getD "") ≠ ""

def createdAt (id : ReplicaId) : Option ℚ :=
  (redis.records id).createdAt.bind (float nearest)

def CreatedBefore (first second : ReplicaId) : Prop :=
  (createdAt nearest redis first).getD 0 ≤ (createdAt nearest redis second).getD 0

instance : DecidableRel (CreatedBefore nearest redis) :=
  fun _ _ => inferInstanceAs (Decidable (_ ≤ _))

def addressOf (id : ReplicaId) : Address :=
  (redis.records id).address.getD ""

/-- The addresses to route to, oldest first; `none` where a record has no creation time to sort
by. -/
def coreAddresses (agentName : AgentName) : Option (List Address) :=
  let listed := listReplicas redis answers agentName
  if ∀ id ∈ listed, (createdAt nearest redis id).isSome then
    some (((listed.insertionSort (CreatedBefore nearest redis)).filter fun id =>
      (redis.records id).drainingAt.isNone).map (addressOf redis))
  else none

/-- What both publishers do first: the agents listed no more leave every key. -/
def Table.prune (listed : List AgentName) (table : Table) : Table where
  agents := table.agents.filter (· ∈ listed)
  stateful name := if name ∈ table.agents ∧ name ∉ listed then none else table.stateful name
  addresses name := if name ∈ table.agents ∧ name ∉ listed then none else table.addresses name
  replicas name := if name ∈ table.agents ∧ name ∉ listed then none else table.replicas name

/-- An empty list is not stored. -/
def stored (encode : List Address → Text) (addresses : List Address) : Option Text :=
  if addresses = [] then none else some (encode addresses)

/-- One agent's turn; `true` when it raised. -/
def coreWrite (stateful : List AgentName) (table : Table) (agentName : AgentName) : Table × Bool :=
  let named := { table with
    agents := insert agentName table.agents
    stateful := Function.update table.stateful agentName
      (if agentName ∈ stateful then some "true" else none) }
  match coreAddresses nearest redis answers agentName with
  | none => (named, true)
  | some addresses =>
      ({ named with
        replicas := Function.update table.replicas agentName
          (some (dumps ((listReplicas redis answers agentName).map (addressOf redis))))
        addresses := Function.update table.addresses agentName (stored dumps addresses) }, false)

/-- What is left of the loop once an agent raised is skipped. -/
def coreLoop (stateful : List AgentName) : List AgentName → Table → Table
  | [], table => table
  | name :: names, table =>
      match coreWrite nearest redis answers stateful table name with
      | (table, true) => table
      | (table, false) => coreLoop stateful names table

/-- `publish_routing_snapshot` to this Redis, the primary. -/
def publishRoutingSnapshot (agents : List Agent) : Table :=
  let names := (agents.map Agent.name).dedup
  let stateful := (agents.filter Agent.stateful).map Agent.name
  coreLoop nearest redis answers stateful names (redis.table.prune names)

end Core

/-! ### The operator -/

section Operator

variable (redis : Redis) (answers : Answers redis)

def parsedCreatedAt (id : ReplicaId) : ℚ :=
  parseFloat nearest ((redis.records id).createdAt.getD "")

/-- `cmp.Or` of the creation times and the ids. -/
def Older (first second : ReplicaId) : Prop :=
  parsedCreatedAt nearest redis first < parsedCreatedAt nearest redis second ∨
    (parsedCreatedAt nearest redis first = parsedCreatedAt nearest redis second ∧
      first ≤ second)

instance : DecidableRel (Older nearest redis) :=
  fun _ _ => inferInstanceAs (Decidable (_ ∨ _))

def routedAddresses (agentName : AgentName) : List Address :=
  (((answers.instances agentName).filter fun id => addressOf redis id ≠ "").insertionSort
    (Older nearest redis)).map (addressOf redis)

/-- `slices.Sort`, then `slices.Compact`. -/
def existingAddresses (routed tracked : List Address) : List Address :=
  ((routed ++ tracked).insertionSort (· ≤ ·)).destutter (· ≠ ·)

def operatorWrite (table : Table) (agent : Agent) : Table :=
  let addresses := routedAddresses nearest redis answers agent.name
  { agents := insert agent.name table.agents
    stateful := Function.update table.stateful agent.name
      (if agent.stateful then some "true" else none)
    addresses := Function.update table.addresses agent.name (stored addressesJson addresses)
    replicas := Function.update table.replicas agent.name
      (some (addressesJson (existingAddresses addresses (answers.tracked agent.name)))) }

def publishRouting (agents : List Agent) : Table :=
  agents.foldl (operatorWrite nearest redis answers)
    (redis.table.prune (agents.map Agent.name))

end Operator

/-! ### Agreement -/

section Agreement

variable (redis : Redis)

/-- A record whose launch is over, of a replica that is not draining. -/
structure Finished (record : ReplicaRecord) : Prop where
  address : record.address.getD "" ≠ ""
  createdAt : (record.createdAt.bind decimal).isSome
  drainingAt : record.drainingAt = none

/-- The records of the agents listed are finished ones, whose addresses are the tracked ones. -/
structure Eligible (listed : List Agent) : Prop where
  finished : ∀ agent ∈ listed, ∀ id ∈ redis.instances agent.name, Finished (redis.records id)
  tracked : ∀ agent ∈ listed,
    redis.tracked agent.name = (redis.instances agent.name).image (addressOf redis)

/-- An agent listed more than once has one flag. -/
def OneFlag (agents : List Agent) : Prop :=
  ∀ first ∈ agents, ∀ second ∈ agents, first.name = second.name →
    first.stateful = second.stateful

/-- A character both encoders write as it is. -/
def PlainChar (char : Char) : Prop :=
  0x20 ≤ char.toNat ∧ char.toNat ≤ 0x7E ∧ char ∉ ['<', '>', '&']

def PlainAddress (address : Address) : Prop :=
  ∀ char ∈ address.toList, PlainChar char

/-- What the two publishers leave alike. -/
structure Agree (listed : List Agent) (core operator : Table) : Prop where
  agents : core.agents = operator.agents
  stateful : OneFlag listed → core.stateful = operator.stateful
  addresses : ∀ agent ∈ listed, ∃ addresses : List Address,
    core.addresses agent.name = stored dumps addresses ∧
      operator.addresses agent.name = stored addressesJson addresses
  encoded : (∀ agent ∈ listed, ∀ id ∈ redis.instances agent.name,
    PlainAddress (addressOf redis id)) → core.addresses = operator.addresses
  replicas : ∀ agent ∈ listed, ∃ known existing : List Address,
    core.replicas agent.name = some (dumps known) ∧
      operator.replicas agent.name = some (addressesJson existing) ∧
      known.toFinset = existing.toFinset
  unlisted : ∀ name, name ∉ listed.map Agent.name →
    core.addresses name = operator.addresses name ∧ core.replicas name = operator.replicas name

end Agreement

variable {nearest : ℚ → ℚ} {redis : Redis}

/-! ### Order -/

theorem parsedCreatedAt_eq (id : ReplicaId) :
    parsedCreatedAt nearest redis id = (createdAt nearest redis id).getD 0 := by
  rw [parsedCreatedAt, createdAt]
  cases (redis.records id).createdAt with
  | none => rfl
  | some text => rfl

instance total_createdBefore : Std.Total (CreatedBefore nearest redis) where
  total := fun _ _ => le_total _ _

instance trans_createdBefore : IsTrans ReplicaId (CreatedBefore nearest redis) where
  trans := fun _ _ _ hfirst hsecond => le_trans hfirst hsecond

/-- The operator's comparison breaks ties as a stable sort by creation time of sorted ids does. -/
theorem older_iff (first second : ReplicaId) :
    Older nearest redis first second ↔
      StableSort.Then (CreatedBefore nearest redis) (· ≤ ·) first second := by
  rw [Older, StableSort.Then, parsedCreatedAt_eq, parsedCreatedAt_eq, CreatedBefore, CreatedBefore]
  constructor
  · rintro (hlt | ⟨heq, hle⟩)
    · exact ⟨hlt.le, fun hback => absurd hback (not_le.mpr hlt)⟩
    · exact ⟨heq.le, fun _ => hle⟩
  · intro ⟨hle, hids⟩
    rcases hle.lt_or_eq with hlt | heq
    · exact Or.inl hlt
    · exact Or.inr ⟨heq, hids heq.ge⟩

theorem insertionSort_older (ids : List ReplicaId) :
    ids.insertionSort (Older nearest redis) =
      ids.insertionSort (StableSort.Then (CreatedBefore nearest redis) (· ≤ ·)) := by
  have hrel : Older nearest redis =
      StableSort.Then (CreatedBefore nearest redis) (· ≤ ·) := by
    funext first second
    exact propext (older_iff first second)
  congr

theorem pairwise_listReplicas (answers : Answers redis) (agentName : AgentName) :
    (listReplicas redis answers agentName).Pairwise (· ≤ ·) := by
  apply List.Pairwise.filter
  exact List.pairwise_insertionSort _ _

theorem listReplicas_perm (core operator : Answers redis) {agentName : AgentName}
    (hname : agentName ≠ "") :
    (listReplicas redis core agentName).Perm
      ((operator.instances agentName).filter fun id => addressOf redis id ≠ "") := by
  have hperm : (core.instances agentName).Perm (operator.instances agentName) := by
    apply (List.perm_ext_iff_of_nodup (core.nodup agentName) (operator.nodup agentName)).mpr
    intro id
    rw [← List.mem_toFinset, ← List.mem_toFinset, core.toFinset_instances,
      operator.toFinset_instances]
  rw [listReplicas, if_neg hname]
  exact ((List.perm_insertionSort _ _).trans hperm).filter _

theorem mem_listReplicas {answers : Answers redis} {agentName : AgentName} (hname : agentName ≠ "")
    {id : ReplicaId} :
    id ∈ listReplicas redis answers agentName ↔
      id ∈ redis.instances agentName ∧ addressOf redis id ≠ "" := by
  rw [(listReplicas_perm answers answers hname).mem_iff, List.mem_filter, ← List.mem_toFinset,
    answers.toFinset_instances, decide_eq_true_eq]

/-- Both publishers route to the same addresses in the same order. -/
theorem coreAddresses_eq (core operator : Answers redis) {agentName : AgentName}
    (hname : agentName ≠ "")
    (hfinished : ∀ id ∈ redis.instances agentName, Finished (redis.records id)) :
    coreAddresses nearest redis core agentName =
      some (routedAddresses nearest redis operator agentName) := by
  have hcreated : ∀ id ∈ listReplicas redis core agentName,
      (createdAt nearest redis id).isSome := by
    intro id hid
    have hdecimal := (hfinished id ((mem_listReplicas hname).mp hid).1).createdAt
    rw [createdAt]
    cases hcreatedAt : (redis.records id).createdAt with
    | none =>
        rw [hcreatedAt] at hdecimal
        cases hdecimal
    | some text =>
        rw [hcreatedAt] at hdecimal
        change ((decimal text).map nearest).isSome
        rw [Option.isSome_map]
        exact hdecimal
  have hdraining : ∀ id ∈ (listReplicas redis core agentName).insertionSort
      (CreatedBefore nearest redis), (redis.records id).drainingAt.isNone = true := by
    intro id hid
    have hid := (mem_listReplicas hname).mp ((List.mem_insertionSort _).mp hid)
    rw [(hfinished id hid.1).drainingAt]
    rfl
  rw [coreAddresses, if_pos hcreated, List.filter_eq_self.mpr hdraining, routedAddresses,
    insertionSort_older]
  congr 2
  exact StableSort.insertionSort_eq_then (pairwise_listReplicas core agentName)
    (listReplicas_perm core operator hname)

/-! ### The loops -/

section Loops

variable {answers : Answers redis}

/-- What core's loop writes, when no agent raises. -/
structure CoreLoop (answers : Answers redis) (nearest : ℚ → ℚ) (stateful names : List AgentName)
    (before after : Table) : Prop where
  inSet : ∀ name, name ∈ after.agents ↔ name ∈ before.agents ∨ name ∈ names
  written : ∀ name ∈ names, ∀ addresses,
    coreAddresses nearest redis answers name = some addresses →
      after.stateful name = (if name ∈ stateful then some "true" else none) ∧
      after.addresses name = stored dumps addresses ∧
      after.replicas name =
        some (dumps ((listReplicas redis answers name).map (addressOf redis)))
  kept : ∀ name, name ∉ names → after.stateful name = before.stateful name ∧
    after.addresses name = before.addresses name ∧ after.replicas name = before.replicas name

/-- What an agent's turn writes when it does not raise. -/
structure Written (answers : Answers redis) (stateful : List AgentName) (name : AgentName)
    (list : List Address) (before after : Table) : Prop where
  names : after.agents = insert name before.agents
  stateful : after.stateful = Function.update before.stateful name
    (if name ∈ stateful then some "true" else none)
  addresses : after.addresses = Function.update before.addresses name (stored dumps list)
  replicas : after.replicas = Function.update before.replicas name
    (some (dumps ((listReplicas redis answers name).map (addressOf redis))))

theorem coreWrite_of_some (stateful : List AgentName) (table : Table) {name : AgentName}
    {list : List Address} (hlist : coreAddresses nearest redis answers name = some list) :
    ∃ next, Written answers stateful name list table next ∧
      coreWrite nearest redis answers stateful table name = (next, false) := by
  rw [coreWrite, hlist]
  exact ⟨_, ⟨rfl, rfl, rfl, rfl⟩, rfl⟩

theorem coreLoop_spec (stateful names : List AgentName) (table : Table)
    (hreads : ∀ name ∈ names, (coreAddresses nearest redis answers name).isSome) :
    CoreLoop answers nearest stateful names table
      (coreLoop nearest redis answers stateful names table) := by
  induction names generalizing table with
  | nil =>
      refine ⟨fun name => by simp [coreLoop], ?_, fun _ _ => ⟨rfl, rfl, rfl⟩⟩
      intro name hmem
      cases hmem
  | cons head names ih =>
      obtain ⟨hhead, hnames⟩ := List.forall_mem_cons.mp hreads
      obtain ⟨addresses, haddresses⟩ := Option.isSome_iff_exists.mp hhead
      obtain ⟨next, hnext, hwrite⟩ := coreWrite_of_some stateful table haddresses
      rw [coreLoop, hwrite]
      have hrest := ih next hnames
      refine ⟨?_, ?_, ?_⟩
      · intro name
        rw [hrest.inSet, hnext.names, Finset.mem_insert, List.mem_cons]
        grind
      · intro name hmem other hother
        by_cases hname : name ∈ names
        · exact hrest.written name hname other hother
        · obtain rfl : name = head := (List.mem_cons.mp hmem).resolve_right hname
          obtain ⟨hstateful, hlist, hreplicas⟩ := hrest.kept name hname
          rw [hstateful, hlist, hreplicas, hnext.stateful, hnext.addresses, hnext.replicas]
          rw [haddresses] at hother
          cases hother
          simp
      · intro name hname
        rw [List.mem_cons, not_or] at hname
        obtain ⟨hstateful, hlist, hreplicas⟩ := hrest.kept name hname.2
        rw [hstateful, hlist, hreplicas, hnext.stateful, hnext.addresses, hnext.replicas]
        simp [hname.1]

/-- What the operator's loop writes. The last of an agent's flags counts. -/
structure OperatorLoop (answers : Answers redis) (nearest : ℚ → ℚ) (listed : List Agent)
    (before after : Table) : Prop where
  inSet : ∀ name, name ∈ after.agents ↔ name ∈ before.agents ∨ name ∈ listed.map Agent.name
  flagged : ∀ name ∈ listed.map Agent.name, ∃ agent ∈ listed, agent.name = name ∧
    after.stateful name = if agent.stateful then some "true" else none
  written : ∀ name ∈ listed.map Agent.name,
    after.addresses name =
        stored addressesJson (routedAddresses nearest redis answers name) ∧
      after.replicas name = some (addressesJson (existingAddresses
        (routedAddresses nearest redis answers name) (answers.tracked name)))
  kept : ∀ name, name ∉ listed.map Agent.name → after.stateful name = before.stateful name ∧
    after.addresses name = before.addresses name ∧ after.replicas name = before.replicas name

theorem operatorLoop_spec (agents : List Agent) (table : Table) :
    OperatorLoop answers nearest agents table
      (agents.foldl (operatorWrite nearest redis answers) table) := by
  induction agents generalizing table with
  | nil =>
      refine ⟨fun name => by simp, ?_, ?_, fun _ _ => ⟨rfl, rfl, rfl⟩⟩
      · intro name hmem
        cases hmem
      · intro name hmem
        cases hmem
  | cons head agents ih =>
      rw [List.foldl_cons]
      have hrest := ih (operatorWrite nearest redis answers table head)
      refine ⟨?_, ?_, ?_, ?_⟩
      · intro name
        rw [hrest.inSet, operatorWrite, Finset.mem_insert, List.map_cons, List.mem_cons]
        grind
      · intro name hmem
        by_cases hname : name ∈ agents.map Agent.name
        · obtain ⟨agent, hagent, heq, hflag⟩ := hrest.flagged name hname
          exact ⟨agent, List.mem_cons_of_mem _ hagent, heq, hflag⟩
        · rw [List.map_cons, List.mem_cons] at hmem
          obtain rfl := hmem.resolve_right hname
          refine ⟨head, List.mem_cons_self, rfl, ?_⟩
          rw [(hrest.kept _ hname).1, operatorWrite]
          exact Function.update_self _ _ _
      · intro name hmem
        by_cases hname : name ∈ agents.map Agent.name
        · exact hrest.written name hname
        · rw [List.map_cons, List.mem_cons] at hmem
          obtain rfl := hmem.resolve_right hname
          obtain ⟨_, hlist, hreplicas⟩ := hrest.kept _ hname
          rw [hlist, hreplicas]
          simp [operatorWrite]
      · intro name hname
        rw [List.map_cons, List.mem_cons, not_or] at hname
        obtain ⟨hstateful, hlist, hreplicas⟩ := hrest.kept name hname.2
        rw [hstateful, hlist, hreplicas]
        simp [operatorWrite, hname.1]

end Loops

/-! ### The encoders -/

theorem escape_eq_marshalChar {char : Char} (hplain : PlainChar char) :
    Gateway.Bedrock.escape (CodePoints.ofChar char) = marshalChar char := by
  obtain ⟨hlow, hhigh, hmarkup⟩ := hplain
  by_cases hquote : char = '"'
  · subst hquote
    decide
  · by_cases hbackslash : char = '\\'
    · subst hbackslash
      decide
    · have hquote' : char.toNat ≠ 0x22 := fun heq => hquote (Char.toNat_inj.mp heq)
      have hbackslash' : char.toNat ≠ 0x5C := fun heq => hbackslash (Char.toNat_inj.mp heq)
      rw [Gateway.Bedrock.escape_of_plain ⟨hlow, hhigh, hquote', hbackslash'⟩, marshalChar,
        if_neg hquote, if_neg hbackslash, if_neg (by omega), if_neg (by omega),
        if_neg (by omega), if_neg (by omega), if_neg (by omega), if_neg]
      rintro (hcontrol | hmem | hseparator)
      · omega
      · exact hmarkup hmem
      · simp only [List.mem_cons, List.not_mem_nil, or_false] at hseparator
        omega

theorem quote_eq_marshal {address : Address} (hplain : PlainAddress address) :
    Gateway.Bedrock.quote (CodePoints.ofString address) = marshal address := by
  have hchars : ∀ chars : List Char, (∀ char ∈ chars, PlainChar char) →
      (chars.map CodePoints.ofChar).flatMap Gateway.Bedrock.escape =
        chars.flatMap marshalChar := by
    intro chars hchars
    induction chars with
    | nil => rfl
    | cons char chars ih =>
        obtain ⟨hchar, hchars⟩ := List.forall_mem_cons.mp hchars
        rw [List.map_cons, List.flatMap_cons, List.flatMap_cons, escape_eq_marshalChar hchar,
          ih hchars]
  rw [Gateway.Bedrock.quote, marshal, CodePoints.ofString, hchars _ hplain]

/-- Of plain addresses both encoders write one text. -/
theorem dumps_eq_addressesJson {addresses : List Address}
    (hplain : ∀ address ∈ addresses, PlainAddress address) :
    dumps addresses = addressesJson addresses := by
  have hquoted : (addresses.map fun address =>
      Gateway.Bedrock.quote (CodePoints.ofString address)) = addresses.map marshal := by
    apply List.map_congr_left
    intro address hmem
    exact quote_eq_marshal (hplain address hmem)
  rw [dumps, addressesJson, hquoted]

theorem mem_routedAddresses {answers : Answers redis} {agentName : AgentName} {address : Address} :
    address ∈ routedAddresses nearest redis answers agentName ↔
      ∃ id ∈ redis.instances agentName, addressOf redis id ≠ "" ∧ addressOf redis id = address := by
  rw [routedAddresses, List.mem_map]
  constructor
  · rintro ⟨id, hid, haddress⟩
    obtain ⟨hid, hne⟩ := List.mem_filter.mp ((List.mem_insertionSort _).mp hid)
    rw [← List.mem_toFinset, answers.toFinset_instances] at hid
    exact ⟨id, hid, of_decide_eq_true hne, haddress⟩
  · rintro ⟨id, hid, hne, haddress⟩
    rw [← answers.toFinset_instances, List.mem_toFinset] at hid
    refine ⟨id, ?_, haddress⟩
    exact (List.mem_insertionSort _).mpr (List.mem_filter.mpr ⟨hid, decide_eq_true hne⟩)

theorem mem_existingAddresses {routed tracked : List Address} {address : Address} :
    address ∈ existingAddresses routed tracked ↔ address ∈ routed ∨ address ∈ tracked := by
  have hsorted : ((routed ++ tracked).insertionSort (· ≤ ·)).Pairwise (· ≤ ·) :=
    List.pairwise_insertionSort _ _
  rw [existingAddresses, hsorted.destutter_eq_dedup, List.mem_dedup, List.mem_insertionSort,
    List.mem_append]

/-- The two lists of every replica that exists hold the same addresses. -/
theorem known_eq_existing (core operator : Answers redis) {agentName : AgentName}
    (hname : agentName ≠ "")
    (hfinished : ∀ id ∈ redis.instances agentName, Finished (redis.records id))
    (htracked : redis.tracked agentName = (redis.instances agentName).image (addressOf redis)) :
    ((listReplicas redis core agentName).map (addressOf redis)).toFinset =
      (existingAddresses (routedAddresses nearest redis operator agentName)
        (operator.tracked agentName)).toFinset := by
  ext address
  rw [List.mem_toFinset, List.mem_toFinset, mem_existingAddresses, mem_routedAddresses,
    ← @List.mem_toFinset _ _ (operator.tracked agentName), operator.toFinset_tracked, htracked,
    Finset.mem_image, List.mem_map]
  constructor
  · rintro ⟨id, hid, haddress⟩
    exact Or.inr ⟨id, ((mem_listReplicas hname).mp hid).1, haddress⟩
  · rintro (⟨id, hid, hne, haddress⟩ | ⟨id, hid, haddress⟩)
    · exact ⟨id, (mem_listReplicas hname).mpr ⟨hid, hne⟩, haddress⟩
    · exact ⟨id, (mem_listReplicas hname).mpr ⟨hid, (hfinished id hid).address⟩, haddress⟩

theorem prune_congr {first second : List AgentName} (table : Table)
    (hmem : ∀ name, name ∈ first ↔ name ∈ second) : table.prune first = table.prune second := by
  simp only [Table.prune, hmem]

/-! ### Both publishes -/

/-- Whatever the table was before, the two publishers leave the same agents, the same addresses in
the same order and the same replicas; the same flags where no agent is listed with two, and the
same texts where the addresses are plain. -/
theorem publishers_agree (core operator : Answers redis) (agents : List Agent)
    (heligible : Eligible redis agents) (hnames : ∀ agent ∈ agents, agent.name ≠ "") :
    Agree redis agents (publishRoutingSnapshot nearest redis core agents)
      (publishRouting nearest redis operator agents) := by
  have hread : ∀ agent ∈ agents, coreAddresses nearest redis core agent.name =
      some (routedAddresses nearest redis operator agent.name) := by
    intro agent hagent
    exact coreAddresses_eq core operator (hnames agent hagent)
      (heligible.finished agent hagent)
  have hlisted : ∀ name, name ∈ (agents.map Agent.name).dedup ↔ name ∈ agents.map Agent.name :=
    fun name => List.mem_dedup
  have hreads : ∀ name ∈ (agents.map Agent.name).dedup,
      (coreAddresses nearest redis core name).isSome := by
    intro name hname
    obtain ⟨agent, hagent, rfl⟩ := List.mem_map.mp ((hlisted name).mp hname)
    rw [hread agent hagent]
    rfl
  have hcore := coreLoop_spec ((agents.filter Agent.stateful).map Agent.name)
    (agents.map Agent.name).dedup (redis.table.prune (agents.map Agent.name)) hreads
  have hoperator := @operatorLoop_spec nearest redis operator agents
    (redis.table.prune (agents.map Agent.name))
  have hmem : ∀ agent ∈ agents, agent.name ∈ (agents.map Agent.name).dedup := by
    intro agent hagent
    exact (hlisted _).mpr (List.mem_map_of_mem hagent)
  have hkeptCore : ∀ name, name ∉ agents.map Agent.name → _ :=
    fun name hname => hcore.kept name (fun hdedup => hname ((hlisted name).mp hdedup))
  rw [publishRoutingSnapshot, publishRouting, prune_congr _ hlisted]
  constructor
  · ext name
    rw [hcore.inSet, hoperator.inSet, hlisted]
  · intro hflag
    funext name
    by_cases hname : name ∈ agents.map Agent.name
    · obtain ⟨agent, hagent, rfl, hstateful⟩ := hoperator.flagged name hname
      rw [(hcore.written _ (hmem agent hagent) _ (hread agent hagent)).1, hstateful]
      have hiff : agent.name ∈ (agents.filter Agent.stateful).map Agent.name ↔
          agent.stateful = true := by
        constructor
        · intro hin
          obtain ⟨other, hother, heq⟩ := List.mem_map.mp hin
          obtain ⟨hother, htrue⟩ := List.mem_filter.mp hother
          rw [← hflag other hother agent hagent heq]
          exact htrue
        · intro htrue
          exact List.mem_map_of_mem (List.mem_filter.mpr ⟨hagent, htrue⟩)
      simp only [hiff]
    · rw [(hkeptCore name hname).1, (hoperator.kept name hname).1]
  · intro agent hagent
    refine ⟨routedAddresses nearest redis operator agent.name, ?_, ?_⟩
    · exact (hcore.written _ (hmem agent hagent) _ (hread agent hagent)).2.1
    · exact (hoperator.written _ (List.mem_map_of_mem hagent)).1
  · intro hplain
    funext name
    by_cases hname : name ∈ agents.map Agent.name
    · obtain ⟨agent, hagent, rfl⟩ := List.mem_map.mp hname
      rw [(hcore.written _ (hmem agent hagent) _ (hread agent hagent)).2.1,
        (hoperator.written _ hname).1, stored, stored, dumps_eq_addressesJson]
      intro address haddress
      obtain ⟨id, hid, _, rfl⟩ := mem_routedAddresses.mp haddress
      exact hplain agent hagent id hid
    · rw [(hkeptCore name hname).2.1, (hoperator.kept name hname).2.1]
  · intro agent hagent
    refine ⟨_, _, (hcore.written _ (hmem agent hagent) _ (hread agent hagent)).2.2,
      (hoperator.written _ (List.mem_map_of_mem hagent)).2, ?_⟩
    exact known_eq_existing core operator (hnames agent hagent)
      (heligible.finished agent hagent) (heligible.tracked agent hagent)
  · intro name hname
    obtain ⟨_, hlist, hreplicas⟩ := hkeptCore name hname
    obtain ⟨_, hlist', hreplicas'⟩ := hoperator.kept name hname
    rw [hlist, hreplicas, hlist', hreplicas']
    exact ⟨rfl, rfl⟩

/-- One agent with one replica. -/
def searchRedis (address : Address) : Redis where
  instances name := if name = "search" then {"search-0"} else ∅
  recordIds := {"search-0"}
  records _ := { address := some address, createdAt := some "1791993600.0" }
  tracked name := if name = "search" then {address} else ∅

def searchAnswers (address : Address) : Answers (searchRedis address) where
  instances name := if name = "search" then ["search-0"] else []
  tracked name := if name = "search" then [address] else []
  scanned := ["search-0"]
  nodup name := by by_cases hname : name = "search" <;> simp [hname]
  toFinset_instances name := by by_cases hname : name = "search" <;> simp [searchRedis, hname]
  toFinset_tracked name := by by_cases hname : name = "search" <;> simp [searchRedis, hname]
  toFinset_scanned := rfl

theorem eligible_searchRedis {address : Address} (haddress : address ≠ "") (listed : List Agent) :
    Eligible (searchRedis address) listed where
  finished := by
    intro agent _ id _
    have hdecimal : (decimal "1791993600.0").isSome = true := by decide
    exact ⟨haddress, hdecimal, rfl⟩
  tracked := by
    intro agent _
    by_cases hname : agent.name = "search" <;> simp [searchRedis, addressOf, hname]

/-- An agent listed with two flags, an address with a character that HTML gives a meaning to, and
an agent without a name. -/
theorem publishers_differ :
    (Eligible (searchRedis "a:1") [⟨"search", true⟩, ⟨"search", false⟩] ∧
      (publishRoutingSnapshot id _ (searchAnswers "a:1")
          [⟨"search", true⟩, ⟨"search", false⟩]).stateful "search" ≠
        (publishRouting id _ (searchAnswers "a:1")
          [⟨"search", true⟩, ⟨"search", false⟩]).stateful "search") ∧
      (Eligible (searchRedis "a&b:1") [⟨"search", false⟩] ∧
        (publishRoutingSnapshot id _ (searchAnswers "a&b:1")
            [⟨"search", false⟩]).addresses "search" ≠
          (publishRouting id _ (searchAnswers "a&b:1")
            [⟨"search", false⟩]).addresses "search") ∧
      (Eligible (searchRedis "a:1") [⟨"", false⟩] ∧
        (publishRoutingSnapshot id _ (searchAnswers "a:1") [⟨"", false⟩]).replicas "" =
            some (dumps ["a:1"]) ∧
          (publishRouting id _ (searchAnswers "a:1") [⟨"", false⟩]).replicas "" =
            some (addressesJson [])) := by
  refine ⟨⟨eligible_searchRedis (by decide) _, ?_⟩, ⟨eligible_searchRedis (by decide) _, ?_⟩,
    eligible_searchRedis (by decide) _, ?_, ?_⟩
  all_goals decide +kernel

theorem publishers_agree_one_replica :
    Agree (searchRedis "search-0.search.demo.svc:50051") [⟨"search", true⟩]
      (publishRoutingSnapshot id _ (searchAnswers "search-0.search.demo.svc:50051")
        [⟨"search", true⟩])
      (publishRouting id _ (searchAnswers "search-0.search.demo.svc:50051")
        [⟨"search", true⟩]) := by
  apply publishers_agree
  · exact eligible_searchRedis (by decide) _
  · decide

end CanyonOS.Operator.PublishRouting
