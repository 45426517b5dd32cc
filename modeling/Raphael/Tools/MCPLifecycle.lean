import Raphael.Tools.MCPManager

/-! # The lifecycle of MCP servers

Whatever the order of the sections, the registry has the tools that the connected servers
list, a handler of an ended session sends nothing, and no connection is left open behind its
session. -/

namespace Raphael.Tools

open Core Foundation MCPEnvironment

/-! ## What the sections do -/

namespace MCPManager

variable {manager : MCPManager} {key other name revision : String} {connection : Nat}
  {handler : MCPHandler}

@[simp] theorem get_names_revoke {listed : List String} :
    (manager.revoke key).names.get other = some listed ↔
      manager.names.get other = some listed ∧ other ≠ key :=
  Dict.get_erase_eq_some

@[simp] theorem get_connections_revoke :
    (manager.revoke key).connections.get other = some connection ↔
      manager.connections.get other = some connection ∧ other ≠ key :=
  Dict.get_erase_eq_some

@[simp] theorem get_revisions_revoke :
    (manager.revoke key).revisions.get other = some revision ↔
      manager.revisions.get other = some revision ∧ other ≠ key :=
  Dict.get_erase_eq_some

@[simp] theorem get_registry_revoke {entry : RegisteredTool} :
    (manager.revoke key).registry.get name = some entry ↔
      manager.registry.get name = some entry ∧
        ∀ listed, manager.names.get key = some listed → name ∉ listed := by
  refine Dict.get_foldl_erase_eq_some.trans (and_congr_right fun _ => ?_)
  cases manager.names.get key with
  | none => simp
  | some listed => simp

@[simp] theorem mem_disposed_revoke :
    connection ∈ (manager.revoke key).disposed ↔
      manager.connections.get key = some connection ∨ connection ∈ manager.disposed := by
  simp [revoke]

@[simp] theorem states_revoke : (manager.revoke key).states = manager.states := rfl

@[simp] theorem configs_revoke : (manager.revoke key).configs = manager.configs := rfl

@[simp] theorem closed_revoke : (manager.revoke key).closed = manager.closed := rfl

theorem tool_eq_some :
    manager.tool name = some handler ↔
      ∃ entry, manager.registry.get name = some entry ∧ entry.handler = some handler := by
  simp [tool, Option.bind_eq_some_iff]

theorem tool_revoke :
    (manager.revoke key).tool name = some handler ↔
      manager.tool name = some handler ∧
        ∀ listed, manager.names.get key = some listed → name ∉ listed := by
  simp only [tool_eq_some, get_registry_revoke]
  constructor
  · rintro ⟨entry, ⟨found, unlisted⟩, same⟩
    exact ⟨⟨entry, found, same⟩, unlisted⟩
  · rintro ⟨⟨entry, found, same⟩, unlisted⟩
    exact ⟨entry, ⟨found, unlisted⟩, same⟩

theorem holds_iff :
    manager.holds key revision = true ↔
      manager.closed = false ∧ manager.revisions.get key = some revision := by
  simp [holds]

/-- Tools with new names are all registered. -/
theorem registerAll_ok {tools : List (Tool × MCPHandler)}
    (named : ∀ tool ∈ tools, tool.1.name ≠ "")
    (fresh : ∀ tool ∈ tools, manager.registry.get tool.1.name = none)
    (distinct : (tools.map fun tool => tool.1.name).Nodup) :
    ∃ registry, manager.registerAll tools = (.ok (), { manager with registry }) ∧
      ∀ name entry, registry.get name = some entry ↔
        manager.registry.get name = some entry ∨
          ∃ tool ∈ tools, tool.1.name = name ∧
            entry = { tool := tool.1, handler := some tool.2 } := by
  induction tools generalizing manager with
  | nil => exact ⟨manager.registry, rfl, by simp⟩
  | cons tool rest induction =>
      rw [List.map_cons, List.nodup_cons] at distinct
      have unknown := fresh tool List.mem_cons_self
      let next : MCPManager := { manager with
        registry := manager.registry.set tool.1.name
          { tool := tool.1, handler := some tool.2 } }
      have registered : manager.register tool.1 tool.2 = (.ok (), next) := by
        simp [register, unknown, named tool List.mem_cons_self, next]
      have others : ∀ other ∈ rest, other.1.name ≠ tool.1.name := fun other member same =>
        distinct.1 (same ▸ List.mem_map_of_mem member)
      have still : ∀ other ∈ rest, next.registry.get other.1.name = none := by
        intro other member
        rw [Dict.get_set, if_neg (others other member)]
        exact fresh other (List.mem_cons_of_mem _ member)
      rcases induction (fun other member => named other (List.mem_cons_of_mem _ member))
        still distinct.2 with ⟨registry, all, found⟩
      refine ⟨registry, ?_, fun name entry => ?_⟩
      · simp only [registerAll, registered]
        exact all
      · rw [found, Dict.get_set]
        constructor
        · rintro (held | ⟨other, member, same, rfl⟩)
          · split at held
            · next same =>
                cases held
                exact .inr ⟨tool, List.mem_cons_self, same.symm, rfl⟩
            · exact .inl held
          · exact .inr ⟨other, List.mem_cons_of_mem _ member, same, rfl⟩
        · rintro (held | ⟨other, member, same, rfl⟩)
          · refine .inl ?_
            rw [if_neg]
            · exact held
            · rintro rfl
              rw [unknown] at held
              cases held
          · rcases List.mem_cons.mp member with rfl | member
            · exact .inl (if_pos same.symm)
            · exact .inr ⟨other, member, same, rfl⟩

end MCPManager

/-! ## The invariant -/

/-- The phases in which the manager has the connection, unless it is closed. -/
def EnablePhase.hasJoined : EnablePhase → Bool
  | .joined | .validated _ | .published => true
  | _ => false

/-- The phases behind the call's own closing of the connection. -/
def EnablePhase.hasClosed : EnablePhase → Bool
  | .recording | .failed => true
  | _ => false

namespace MCPHistory

/-- The tables of the manager are in step with each other and with the calls. -/
structure Sound (history : MCPHistory) : Prop where
  keyed : ∀ key config, history.manager.configs.get key = some config → config.id = key
  distinct : (history.enables.map EnableCall.revision).Nodup
  drawn : ∀ call ∈ history.enables, (call.key, call.revision) ∈ history.drawn
  named : ∀ call ∈ history.enables, call.config.id = call.key ∧ isRevision call.revision = true
  current : ∀ key revision, history.manager.revisions.get key = some revision →
    (key, revision) ∈ history.drawn
  joined : ∀ key index, history.manager.connections.get key = some index →
    ∃ call, history.enables[index]? = some call ∧ call.key = key ∧
      history.manager.holds key call.revision = true
  listed : ∀ key names, history.manager.names.get key = some names →
    history.manager.states.get key = some .connected ∧
      ∃ index call, history.enables[index]? = some call ∧ call.phase = .published ∧
        history.manager.connections.get key = some index ∧
        ∀ name ∈ names, ∃ handler, history.manager.tool name = some handler ∧
          handler.key = key ∧ handler.revision = call.revision
  registered : ∀ name handler, history.manager.tool name = some handler →
    (∃ names, history.manager.names.get handler.key = some names ∧ name ∈ names) ∧
      ∃ index, name = toolName handler.key handler.revision index handler.remoteName
  others : ∀ name entry, history.manager.registry.get name = some entry →
    entry.handler = none → Text.startsWith "mcp." name = false
  validated : ∀ index call tools, history.enables[index]? = some call →
    call.phase = .validated tools → Built call.config call.revision index tools
  kept : ∀ index call, history.enables[index]? = some call → call.phase.hasJoined = true →
    history.manager.connections.get call.key = some index ∨ index ∈ history.manager.disposed
  disposed : ∀ index call, history.enables[index]? = some call → call.phase.hasClosed = true →
    index ∈ history.manager.disposed
  ended : ∀ session ∈ history.ended,
    session ∈ history.drawn ∧ history.manager.holds session.1 session.2 = false
  late : ∀ call ∈ history.handlers, call.late = true → call.phase = .refused

theorem start_sound (stored : List ServerConfig) (others : OtherTools) :
    (start stored others).Sound := by
  have keyed : ∀ (configs : Dict String ServerConfig),
      (∀ key config, configs.get key = some config → config.id = key) →
      ∀ key config, (stored.foldl (fun configs config => configs.set config.id config)
        configs).get key = some config → config.id = key := by
    induction stored with
    | nil => exact fun _ keyed => keyed
    | cons first rest induction =>
        intro configs keyed
        apply induction
        intro key config found
        rw [Dict.get_set] at found
        split at found
        · next same =>
            cases found
            exact same.symm
        · exact keyed key config found
  constructor
  · exact keyed .empty fun _ _ found => by cases found
  · exact List.nodup_nil
  · exact fun _ member => absurd member List.not_mem_nil
  · exact fun _ member => absurd member List.not_mem_nil
  · exact fun _ _ found => by cases found
  · exact fun _ _ found => by cases found
  · exact fun _ _ found => by cases found
  · intro name handler found
    rcases MCPManager.tool_eq_some.mp found with ⟨entry, present, same⟩
    rw [(others.plain name entry present).1] at same
    cases same
  · exact fun name entry found _ => (others.plain name entry found).2
  · exact fun _ _ _ found => by cases found
  · exact fun _ _ found => by cases found
  · exact fun _ _ found => by cases found
  · exact fun _ member => absurd member List.not_mem_nil
  · exact fun _ member => absurd member List.not_mem_nil

variable {history : MCPHistory} {key revision : String} {index : Nat} {call : EnableCall}

/-- A revision is that of one call. -/
theorem Sound.index_unique (sound : history.Sound) {other : Nat} {call' : EnableCall}
    (found : history.enables[index]? = some call) (found' : history.enables[other]? = some call')
    (same : call.revision = call'.revision) : index = other := by
  have left : (history.enables.map EnableCall.revision)[index]? = some call.revision := by
    rw [List.getElem?_map, found]
    rfl
  have right : (history.enables.map EnableCall.revision)[other]? = some call.revision := by
    rw [List.getElem?_map, found', same]
    rfl
  have inside : index < (history.enables.map EnableCall.revision).length :=
    (List.getElem?_eq_some_iff.mp left).1
  exact (List.getElem?_inj inside sound.distinct).mp (left.trans right.symm)

/-- The tools that a server lists are of the call whose revision is current. -/
theorem Sound.unlisted (sound : history.Sound) (found : history.enables[index]? = some call)
    (current : history.manager.revisions.get call.key = some call.revision)
    (unpublished : call.phase ≠ .published) : history.manager.names.get call.key = none := by
  by_contra named
  rcases Option.ne_none_iff_exists'.mp named with ⟨names, listed⟩
  rcases (sound.listed _ _ listed).2 with ⟨other, call', found', published, joined, _⟩
  rcases sound.joined _ _ joined with ⟨_, again, _, holds⟩
  cases found'.symm.trans again
  have same := current.symm.trans (MCPManager.holds_iff.mp holds).2
  cases sound.index_unique found found' (Option.some.inj same)
  cases found.symm.trans found'
  exact unpublished published

/-! ## The sections keep it -/

/-- A session is revoked. -/
theorem Sound.revoke (sound : history.Sound) (key : String) :
    { history with manager := history.manager.revoke key }.Sound where
  keyed := sound.keyed
  distinct := sound.distinct
  drawn := sound.drawn
  named := sound.named
  current other revision found :=
    sound.current other revision (MCPManager.get_revisions_revoke.mp found).1
  joined other index found := by
    rcases MCPManager.get_connections_revoke.mp found with ⟨found, differs⟩
    rcases sound.joined other index found with ⟨call, called, same, holds⟩
    refine ⟨call, called, same, ?_⟩
    rw [MCPManager.holds_iff] at holds ⊢
    exact ⟨holds.1, MCPManager.get_revisions_revoke.mpr ⟨holds.2, differs⟩⟩
  listed other names found := by
    rcases MCPManager.get_names_revoke.mp found with ⟨found, differs⟩
    rcases sound.listed other names found with
      ⟨connected, index, call, called, published, joined, present⟩
    refine ⟨connected, index, call, called, published,
      MCPManager.get_connections_revoke.mpr ⟨joined, differs⟩, fun name member => ?_⟩
    rcases present name member with ⟨handler, held, same, revision⟩
    refine ⟨handler, MCPManager.tool_revoke.mpr ⟨held, fun revoked listed inside => ?_⟩,
      same, revision⟩
    rcases (sound.listed key revoked listed).2 with ⟨_, _, _, _, _, own⟩
    rcases own name inside with ⟨handler', held', same', _⟩
    cases held.symm.trans held'
    exact differs (same.symm.trans same')
  registered name handler found := by
    rcases MCPManager.tool_revoke.mp found with ⟨held, unlisted⟩
    rcases sound.registered name handler held with ⟨⟨names, listed, member⟩, shape⟩
    refine ⟨⟨names, MCPManager.get_names_revoke.mpr ⟨listed, ?_⟩, member⟩, shape⟩
    rintro rfl
    exact unlisted names listed member
  others name entry found :=
    sound.others name entry (MCPManager.get_registry_revoke.mp found).1
  validated := sound.validated
  kept index call found joined := by
    rcases sound.kept index call found joined with connected | closed
    · by_cases same : call.key = key
      · exact .inr (MCPManager.mem_disposed_revoke.mpr (.inl (same ▸ connected)))
      · exact .inl (MCPManager.get_connections_revoke.mpr ⟨connected, same⟩)
    · exact .inr (MCPManager.mem_disposed_revoke.mpr (.inr closed))
  disposed index call found closed :=
    MCPManager.mem_disposed_revoke.mpr (.inr (sound.disposed index call found closed))
  ended session member := by
    rcases sound.ended session member with ⟨drawn, idle⟩
    refine ⟨drawn, ?_⟩
    rw [← Bool.not_eq_true, MCPManager.holds_iff] at idle ⊢
    exact fun holds => idle ⟨holds.1, (MCPManager.get_revisions_revoke.mp holds.2).1⟩
  late := sound.late

/-- Configurations and states change, those of the servers that list tools but for nothing
that matters. -/
theorem Sound.remark (sound : history.Sound) (configs : Dict String ServerConfig)
    (states : Dict String ServerStatus)
    (keyed : ∀ key config, configs.get key = some config → config.id = key)
    (same : ∀ key, history.manager.names.get key ≠ none →
      states.get key = history.manager.states.get key) :
    { history with manager := { history.manager with configs, states } }.Sound where
  keyed := keyed
  distinct := sound.distinct
  drawn := sound.drawn
  named := sound.named
  current := sound.current
  joined := sound.joined
  listed key names found := by
    rcases sound.listed key names found with ⟨connected, rest⟩
    have listing : history.manager.names.get key ≠ none := by
      rw [show history.manager.names.get key = some names from found]
      exact Option.some_ne_none names
    exact ⟨(same key listing).trans connected, rest⟩
  registered := sound.registered
  others := sound.others
  validated := sound.validated
  kept := sound.kept
  disposed := sound.disposed
  ended := sound.ended
  late := sound.late

/-- A revision is drawn. -/
theorem Sound.draw (sound : history.Sound) (session : String × String) :
    { history with drawn := history.drawn ++ [session] }.Sound where
  keyed := sound.keyed
  distinct := sound.distinct
  drawn call member := List.mem_append_left _ (sound.drawn call member)
  named := sound.named
  current key revision found := List.mem_append_left _ (sound.current key revision found)
  joined := sound.joined
  listed := sound.listed
  registered := sound.registered
  others := sound.others
  validated := sound.validated
  kept := sound.kept
  disposed := sound.disposed
  ended session member := (sound.ended session member).imp_left (List.mem_append_left _)
  late := sound.late

/-- A server without a connection gets a revision that was drawn for it. -/
theorem Sound.renew (sound : history.Sound) (drawn : (key, revision) ∈ history.drawn)
    (lasting : (key, revision) ∉ history.ended)
    (idle : history.manager.connections.get key = none) :
    { history with manager := { history.manager with
      revisions := history.manager.revisions.set key revision } }.Sound where
  keyed := sound.keyed
  distinct := sound.distinct
  drawn := sound.drawn
  named := sound.named
  current other held found := by
    rw [Dict.get_set] at found
    split at found
    · next same =>
        cases found
        exact same ▸ drawn
    · exact sound.current other held found
  joined other index found := by
    rcases sound.joined other index found with ⟨call, called, same, holds⟩
    have differs : other ≠ key := by
      rintro rfl
      rw [show history.manager.connections.get other = some index from found] at idle
      cases idle
    refine ⟨call, called, same, ?_⟩
    rw [MCPManager.holds_iff] at holds ⊢
    refine ⟨holds.1, ?_⟩
    rw [Dict.get_set, if_neg differs]
    exact holds.2
  listed := sound.listed
  registered := sound.registered
  others := sound.others
  validated := sound.validated
  kept := sound.kept
  disposed := sound.disposed
  ended session member := by
    rcases sound.ended session member with ⟨before, idle⟩
    refine ⟨before, ?_⟩
    rw [← Bool.not_eq_true, MCPManager.holds_iff] at idle ⊢
    rintro ⟨opened, found⟩
    rw [Dict.get_set] at found
    split at found
    · next same =>
        cases found
        exact lasting (same ▸ member)
    · exact idle ⟨opened, found⟩
  late := sound.late

private theorem getElem?_concat {Item : Type u} {items : List Item} {item other : Item}
    {index : Nat} (found : (items ++ [item])[index]? = some other) :
    items[index]? = some other ∨ other = item := by
  rw [List.getElem?_append] at found
  split at found
  · exact .inl found
  · exact .inr (List.mem_singleton.mp (List.mem_of_getElem? found))

/-- A call of `enable` begins. -/
theorem Sound.begin (sound : history.Sound) (drawn : (call.key, call.revision) ∈ history.drawn)
    (new : call.revision ∉ history.enables.map EnableCall.revision)
    (named : call.config.id = call.key ∧ isRevision call.revision = true)
    (opened : call.phase = .opened) :
    { history with enables := history.enables ++ [call] }.Sound where
  keyed := sound.keyed
  distinct := by
    rw [List.map_append]
    exact sound.distinct.append (List.nodup_singleton _)
      (List.disjoint_singleton.mpr new)
  drawn other member := by
    rcases List.mem_append.mp member with before | same
    · exact sound.drawn other before
    · rw [List.mem_singleton.mp same]
      exact drawn
  named other member := by
    rcases List.mem_append.mp member with before | same
    · exact sound.named other before
    · rw [List.mem_singleton.mp same]
      exact named
  current := sound.current
  joined key index found := by
    rcases sound.joined key index found with ⟨other, called, rest⟩
    exact ⟨other, List.getElem?_append_left (List.getElem?_eq_some_iff.mp called).1 ▸ called,
      rest⟩
  listed key names found := by
    rcases sound.listed key names found with ⟨connected, index, other, called, rest⟩
    exact ⟨connected, index, other,
      List.getElem?_append_left (List.getElem?_eq_some_iff.mp called).1 ▸ called, rest⟩
  registered := sound.registered
  others := sound.others
  validated index other tools found phase := by
    rcases getElem?_concat found with before | rfl
    · exact sound.validated index other tools before phase
    · rw [opened] at phase
      cases phase
  kept index other found joined := by
    rcases getElem?_concat found with before | rfl
    · exact sound.kept index other before joined
    · rw [opened] at joined
      cases joined
  disposed index other found closed := by
    rcases getElem?_concat found with before | rfl
    · exact sound.disposed index other before closed
    · rw [opened] at closed
      cases closed
  ended := sound.ended
  late := sound.late

private theorem mem_of_getElem?_set {Item : Type u} {items : List Item} {item other : Item}
    {index place : Nat} (found : (items.set index item)[place]? = some other) :
    (place = index ∧ other = item) ∨ (place ≠ index ∧ items[place]? = some other) := by
  rw [List.getElem?_set] at found
  split at found
  · next same =>
      split at found
      · exact .inl ⟨same.symm, (Option.some.inj found).symm⟩
      · cases found
  · next differs => exact .inr ⟨Ne.symm differs, found⟩

/-- A call of `enable` that is not over comes to its next phase. -/
theorem Sound.replace (sound : history.Sound) (next : EnableCall)
    (found : history.enables[index]? = some call) (ongoing : call.phase.over = false)
    (same : next.key = call.key ∧ next.revision = call.revision ∧ next.config = call.config)
    (validated : ∀ tools, next.phase = .validated tools →
      Built call.config call.revision index tools)
    (kept : next.phase.hasJoined = true →
      history.manager.connections.get call.key = some index ∨
        index ∈ history.manager.disposed)
    (disposed : next.phase.hasClosed = true → index ∈ history.manager.disposed) :
    { history with enables := history.enables.set index next }.Sound where
  keyed := sound.keyed
  distinct := by
    have unchanged : (history.enables.set index next).map EnableCall.revision =
        history.enables.map EnableCall.revision := by
      apply List.ext_getElem?
      intro place
      rw [List.getElem?_map, List.getElem?_map, List.getElem?_set]
      split
      · next equal =>
          subst equal
          rw [if_pos (List.getElem?_eq_some_iff.mp found).1, found]
          exact congrArg some same.2.1
      · rfl
    rw [unchanged]
    exact sound.distinct
  drawn other member := by
    rcases List.mem_or_eq_of_mem_set member with before | rfl
    · exact sound.drawn other before
    · rw [same.1, same.2.1]
      exact sound.drawn call (List.mem_of_getElem? found)
  named other member := by
    rcases List.mem_or_eq_of_mem_set member with before | rfl
    · exact sound.named other before
    · rw [same.1, same.2.1, same.2.2]
      exact sound.named call (List.mem_of_getElem? found)
  current := sound.current
  joined key place connected := by
    rcases sound.joined key place connected with ⟨other, called, owner, holds⟩
    by_cases equal : index = place
    · subst equal
      cases found.symm.trans called
      exact ⟨next, List.getElem?_set_self (List.getElem?_eq_some_iff.mp found).1,
        same.1.trans owner, same.2.1 ▸ holds⟩
    · exact ⟨other, (List.getElem?_set_ne equal).trans called, owner, holds⟩
  listed key names listing := by
    rcases sound.listed key names listing with
      ⟨connected, place, other, called, published, rest⟩
    refine ⟨connected, place, other, ?_, published, rest⟩
    have differs : index ≠ place := by
      rintro rfl
      cases found.symm.trans called
      rw [published] at ongoing
      cases ongoing
    exact (List.getElem?_set_ne differs).trans called
  registered := sound.registered
  others := sound.others
  validated place other tools present phase := by
    rcases mem_of_getElem?_set present with ⟨rfl, rfl⟩ | ⟨_, before⟩
    · rw [same.2.1, same.2.2]
      exact validated tools phase
    · exact sound.validated place other tools before phase
  kept place other present joined := by
    rcases mem_of_getElem?_set present with ⟨rfl, rfl⟩ | ⟨_, before⟩
    · rw [same.1]
      exact kept joined
    · exact sound.kept place other before joined
  disposed place other present closed := by
    rcases mem_of_getElem?_set present with ⟨rfl, rfl⟩ | ⟨_, before⟩
    · exact disposed closed
    · exact sound.disposed place other before closed
  ended := sound.ended
  late := sound.late

/-- The same where the connection is neither the manager's in the next phase nor closed by the
call. -/
theorem Sound.move (sound : history.Sound) (next : EnableCall)
    (found : history.enables[index]? = some call) (ongoing : call.phase.over = false)
    (same : next.key = call.key ∧ next.revision = call.revision ∧ next.config = call.config)
    (apart : next.phase.hasJoined = false) (unclosed : next.phase.hasClosed = false) :
    { history with enables := history.enables.set index next }.Sound := by
  apply sound.replace next found ongoing same
  · intro tools phase
    rw [phase] at apart
    cases apart
  · intro joined
    rw [apart] at joined
    cases joined
  · intro closed
    rw [unclosed] at closed
    cases closed

/-- The connection of a call that lists nothing yet becomes the server's. -/
theorem Sound.connect (sound : history.Sound) (found : history.enables[index]? = some call)
    (unpublished : call.phase ≠ .published)
    (holds : history.manager.holds call.key call.revision = true) :
    { history with manager := { history.manager with
      connections := history.manager.connections.set call.key index } }.Sound where
  keyed := sound.keyed
  distinct := sound.distinct
  drawn := sound.drawn
  named := sound.named
  current := sound.current
  joined key place connected := by
    rw [Dict.get_set] at connected
    split at connected
    · next same =>
        cases connected
        exact ⟨call, found, same.symm, same ▸ holds⟩
    · exact sound.joined key place connected
  listed key names listing := by
    rcases sound.listed key names listing with
      ⟨connected, place, other, called, published, joined, present⟩
    refine ⟨connected, place, other, called, published, ?_, present⟩
    have differs : key ≠ call.key := by
      rintro rfl
      have unlisted := sound.unlisted found (MCPManager.holds_iff.mp holds).2 unpublished
      cases unlisted.symm.trans listing
    rw [Dict.get_set, if_neg differs]
    exact joined
  registered := sound.registered
  others := sound.others
  validated := sound.validated
  kept place other called joined := by
    rcases sound.kept place other called joined with connected | closed
    · refine .inl ?_
      rw [Dict.get_set]
      split
      · next same =>
          rcases sound.joined _ _ connected with ⟨_, again, _, held⟩
          cases called.symm.trans again
          rw [same] at held
          have current := (MCPManager.holds_iff.mp holds).2.symm.trans
            (MCPManager.holds_iff.mp held).2
          rw [sound.index_unique found called (Option.some.inj current)]
      · exact connected
    · exact .inr closed
  disposed := sound.disposed
  ended := sound.ended
  late := sound.late

/-- A connection is closed. -/
theorem Sound.dispose (sound : history.Sound) (connection : Nat) :
    { history with manager := history.manager.dispose connection }.Sound where
  keyed := sound.keyed
  distinct := sound.distinct
  drawn := sound.drawn
  named := sound.named
  current := sound.current
  joined := sound.joined
  listed := sound.listed
  registered := sound.registered
  others := sound.others
  validated := sound.validated
  kept index call found joined :=
    (sound.kept index call found joined).imp_right (List.mem_cons_of_mem _)
  disposed index call found closed :=
    List.mem_cons_of_mem _ (sound.disposed index call found closed)
  ended := sound.ended
  late := sound.late

/-- The names of a call's tools are new, while its revision is current. -/
theorem Sound.unregistered (sound : history.Sound)
    (found : history.enables[index]? = some call) (unpublished : call.phase ≠ .published)
    (holds : history.manager.holds call.key call.revision = true)
    {tools : List (Tool × MCPHandler)} (built : Built call.config call.revision index tools) :
    ∀ tool ∈ tools, history.manager.registry.get tool.1.name = none := by
  intro tool member
  rcases built.made tool member with ⟨place, remoteName, named, _⟩
  by_contra known
  rcases Option.ne_none_iff_exists'.mp known with ⟨entry, present⟩
  cases handled : entry.handler with
  | none =>
      have other := sound.others _ entry present handled
      rw [named, startsWith_toolName] at other
      cases other
  | some handler =>
      have registered : history.manager.tool tool.1.name = some handler :=
        MCPManager.tool_eq_some.mpr ⟨entry, present, handled⟩
      rcases sound.registered _ handler registered with ⟨⟨names, listed, inside⟩, place', shape⟩
      rcases (sound.listed _ names listed).2 with ⟨other, call', called, _, joined, own⟩
      rcases own _ inside with ⟨handler', registered', owner, session⟩
      cases registered.symm.trans registered'
      rcases sound.joined _ _ joined with ⟨_, again, same, _⟩
      cases called.symm.trans again
      have named' := sound.named call' (List.mem_of_getElem? called)
      have server : isServerId handler.key = true := by
        have valid := call'.config.valid
        rwa [named'.1, same] at valid
      have own := sound.named call (List.mem_of_getElem? found)
      rw [named] at shape
      rcases toolName_inj call.config.valid server own.2 (session ▸ named'.2) shape with
        ⟨sameKey, sameRevision, _⟩
      have unlisted := sound.unlisted found (MCPManager.holds_iff.mp holds).2 unpublished
      rw [← own.1, sameKey, listed] at unlisted
      cases unlisted

/-- The server lists the tools of a call that is published. -/
theorem Sound.list (sound : history.Sound) (found : history.enables[index]? = some call)
    (published : call.phase = .published)
    (joined : history.manager.connections.get call.key = some index)
    (connected : history.manager.states.get call.key = some .connected)
    (unlisted : history.manager.names.get call.key = none)
    {tools : List (Tool × MCPHandler)} (built : Built call.config call.revision index tools)
    {registry : Dict String RegisteredTool}
    (registers : ∀ name entry, registry.get name = some entry ↔
      history.manager.registry.get name = some entry ∨
        ∃ tool ∈ tools, tool.1.name = name ∧
          entry = { tool := tool.1, handler := some tool.2 }) :
    { history with manager := { history.manager with
      registry := registry
      names := history.manager.names.set call.key
        (tools.map fun tool : Tool × MCPHandler => tool.1.name) } }.Sound where
  keyed := sound.keyed
  distinct := sound.distinct
  drawn := sound.drawn
  named := sound.named
  current := sound.current
  joined := sound.joined
  listed key names listing := by
    rw [Dict.get_set] at listing
    split at listing
    · next same =>
        subst same
        cases listing
        refine ⟨connected, index, call, found, published, joined, fun name member => ?_⟩
        rcases List.mem_map.mp member with ⟨tool, inside, rfl⟩
        rcases built.made tool inside with ⟨_, remoteName, _, handler⟩
        refine ⟨tool.2, MCPManager.tool_eq_some.mpr ⟨_,
          (registers _ _).mpr (.inr ⟨tool, inside, rfl, rfl⟩), rfl⟩, ?_, ?_⟩
        · rw [handler]
          exact (sound.named call (List.mem_of_getElem? found)).1
        · rw [handler]
    · rcases sound.listed key names listing with ⟨state, place, other, called, phase, own, present⟩
      refine ⟨state, place, other, called, phase, own, fun name member => ?_⟩
      rcases present name member with ⟨handler, held, rest⟩
      rcases MCPManager.tool_eq_some.mp held with ⟨entry, stored, handled⟩
      exact ⟨handler, MCPManager.tool_eq_some.mpr
        ⟨entry, (registers _ _).mpr (.inl stored), handled⟩, rest⟩
  registered name handler held := by
    rcases MCPManager.tool_eq_some.mp held with ⟨entry, stored, handled⟩
    rcases (registers _ _).mp stored with before | ⟨tool, inside, rfl, rfl⟩
    · rcases sound.registered name handler
        (MCPManager.tool_eq_some.mpr ⟨entry, before, handled⟩) with
        ⟨⟨names, listing, member⟩, shape⟩
      refine ⟨⟨names, ?_, member⟩, shape⟩
      have differs : handler.key ≠ call.key := by
        intro same
        rw [← same, listing] at unlisted
        cases unlisted
      rw [Dict.get_set, if_neg differs]
      exact listing
    · cases handled
      rcases built.made tool inside with ⟨place, remoteName, named, handler⟩
      have owner : tool.2.key = call.key := by
        rw [handler]
        exact (sound.named call (List.mem_of_getElem? found)).1
      refine ⟨⟨tools.map fun tool => tool.1.name, ?_, List.mem_map_of_mem inside⟩, place, ?_⟩
      · rw [Dict.get_set, if_pos owner]
      · rw [named, handler]
  others name entry stored handled := by
    rcases (registers _ _).mp stored with before | ⟨_, _, _, rfl⟩
    · exact sound.others name entry before handled
    · cases handled
  validated := sound.validated
  kept := sound.kept
  disposed := sound.disposed
  ended := sound.ended
  late := sound.late

/-! ## The steps keep it -/

variable {environment : MCPEnvironment} {persisted : Except Error Unit}

theorem Sound.publish (sound : history.Sound) (found : history.enables[index]? = some call)
    {tools : List (Tool × MCPHandler)} (phase : call.phase = .validated tools)
    (holds : history.manager.holds call.key call.revision = true) :
    ∃ manager, history.manager.publish call.key call.revision index tools = (.ok (), manager) ∧
      { history with
        manager, enables := history.enables.set index { call with phase := .published } }.Sound
    := by
  have unpublished : call.phase ≠ .published := by
    rw [phase]
    intro impossible
    cases impossible
  have built := sound.validated index call tools found phase
  have fresh := sound.unregistered found unpublished holds built
  have named : ∀ tool ∈ tools, tool.1.name ≠ "" := by
    intro tool member
    rcases built.made tool member with ⟨place, remoteName, named, _⟩
    rw [named]
    exact toolName_ne_empty _ _ _ _
  rcases MCPManager.registerAll_ok named fresh built.distinct with ⟨registry, all, registers⟩
  have unlisted := sound.unlisted found (MCPManager.holds_iff.mp holds).2 unpublished
  refine ⟨_, by rw [MCPManager.publish, if_pos holds, all], ?_⟩
  have connected := sound.connect found unpublished holds
  have joined : (history.manager.connections.set call.key index).get call.key = some index := by
    rw [Dict.get_set, if_pos rfl]
  have others : ∀ key, history.manager.names.get key ≠ none →
      (history.manager.states.set call.key .connected).get key =
        history.manager.states.get key := by
    intro key listing
    have differs : key ≠ call.key := by
      rintro rfl
      exact listing unlisted
    rw [Dict.get_set, if_neg differs]
  have marked := connected.remark history.manager.configs
    (history.manager.states.set call.key .connected) connected.keyed others
  have ongoing : call.phase.over = false := by
    rw [phase]
    rfl
  have replaced := marked.replace { call with phase := .published } found ongoing
    ⟨rfl, rfl, rfl⟩ (fun _ impossible => by cases impossible) (fun _ => .inl joined)
    (fun impossible => by cases impossible)
  have here : (history.enables.set index { call with phase := .published })[index]? =
      some { call with phase := .published } :=
    List.getElem?_set_self (List.getElem?_eq_some_iff.mp found).1
  exact replaced.list here rfl joined (by rw [Dict.get_set, if_pos rfl]) unlisted built registers

theorem Sound.recordError (sound : history.Sound)
    (found : history.enables[index]? = some call) (phase : call.phase = .recording)
    (message : String) :
    { history with
      manager := history.manager.recordError call.key call.revision message
      enables := history.enables.set index { call with phase := .failed } }.Sound := by
  have ongoing : call.phase.over = false := by
    rw [phase]
    rfl
  have closed : index ∈ history.manager.disposed :=
    sound.disposed index call found (by rw [phase]; rfl)
  have replaced := sound.replace { call with phase := .failed } found ongoing ⟨rfl, rfl, rfl⟩
    (fun _ impossible => by cases impossible) (fun impossible => by cases impossible)
    (fun _ => closed)
  unfold MCPManager.recordError
  split
  · next current =>
      have unlisted := sound.unlisted found current (by
        rw [phase]
        intro impossible
        cases impossible)
      refine replaced.remark history.manager.configs _ replaced.keyed fun key listing => ?_
      have differs : key ≠ call.key := by
        rintro rfl
        exact listing unlisted
      rw [Dict.get_set, if_neg differs]
  · exact replaced

/-- A step of a call of `enable`. -/
theorem Sound.advance (sound : history.Sound) (found : history.enables[index]? = some call)
    {reading : ConnectReading} {next : EnableCall} {manager : MCPManager}
    (stepped : call.advance environment history.manager index reading = some (next, manager)) :
    { history with manager, enables := history.enables.set index next }.Sound := by
  have named := (sound.named call (List.mem_of_getElem? found)).2
  cases phase : call.phase with
  | opened =>
      have ongoing : call.phase.over = false := by rw [phase]; rfl
      simp only [EnableCall.advance, phase] at stepped
      split at stepped
      · cases stepped
        exact sound.move _ found ongoing ⟨rfl, rfl, rfl⟩ rfl rfl
      · cases stepped
        exact sound.move _ found ongoing ⟨rfl, rfl, rfl⟩ rfl rfl
  | made =>
      have ongoing : call.phase.over = false := by rw [phase]; rfl
      have unpublished : call.phase ≠ .published := by
        rw [phase]
        intro impossible
        cases impossible
      by_cases holds : history.manager.holds call.key call.revision = true
      · simp only [EnableCall.advance, phase, MCPManager.join, if_pos holds] at stepped
        cases stepped
        refine (sound.connect found unpublished holds).replace _ found ongoing ⟨rfl, rfl, rfl⟩
          (fun _ impossible => by cases impossible) (fun _ => .inl ?_)
          (fun impossible => by cases impossible)
        rw [Dict.get_set, if_pos rfl]
      · simp only [EnableCall.advance, phase, MCPManager.join, if_neg holds] at stepped
        cases stepped
        exact sound.move _ found ongoing ⟨rfl, rfl, rfl⟩ rfl rfl
  | joined =>
      have ongoing : call.phase.over = false := by rw [phase]; rfl
      have kept := sound.kept index call found (by rw [phase]; rfl)
      simp only [EnableCall.advance, phase] at stepped
      split at stepped
      · cases stepped
        exact sound.move _ found ongoing ⟨rfl, rfl, rfl⟩ rfl rfl
      · split at stepped
        · cases stepped
          exact sound.move _ found ongoing ⟨rfl, rfl, rfl⟩ rfl rfl
        · next tools made =>
            cases stepped
            refine sound.replace _ found ongoing ⟨rfl, rfl, rfl⟩ (fun built same => ?_)
              (fun _ => kept) (fun impossible => by cases impossible)
            cases same
            exact built_of_buildTools named made
  | validated tools =>
      have ongoing : call.phase.over = false := by rw [phase]; rfl
      by_cases holds : history.manager.holds call.key call.revision = true
      · rcases sound.publish found phase holds with ⟨published, answer, kept⟩
        simp only [EnableCall.advance, phase, answer] at stepped
        cases stepped
        exact kept
      · simp only [EnableCall.advance, phase, MCPManager.publish, if_neg holds] at stepped
        cases stepped
        exact sound.move _ found ongoing ⟨rfl, rfl, rfl⟩ rfl rfl
  | failing =>
      have ongoing : call.phase.over = false := by rw [phase]; rfl
      simp only [EnableCall.advance, phase] at stepped
      cases stepped
      exact (sound.dispose index).replace _ found ongoing ⟨rfl, rfl, rfl⟩
        (fun _ impossible => by cases impossible) (fun impossible => by cases impossible)
        (fun _ => List.mem_cons_self)
  | recording =>
      simp only [EnableCall.advance, phase] at stepped
      cases stepped
      exact sound.recordError found phase reading.error
  | published => simp [EnableCall.advance, phase] at stepped
  | failed => simp [EnableCall.advance, phase] at stepped
  | raised => simp [EnableCall.advance, phase] at stepped

/-- The first section of `enable` raises and changes nothing, or begins a new session. -/
theorem enter_cases (manager : MCPManager) (key revision : String)
    (persisted : Except Error Unit) :
    (∃ error, manager.enter key revision persisted = (.error error, manager)) ∨
    ∃ known, manager.configs.get key = some known ∧
      manager.enter key revision persisted =
        (persisted.map fun _ => known.withEnabled true, { manager.revoke key with
          configs := manager.configs.set key (known.withEnabled true)
          revisions := (manager.revoke key).revisions.set key revision
          states := manager.states.set key .connecting }) := by
  unfold MCPManager.enter
  cases manager.configs.get key with
  | none => exact .inl ⟨_, rfl⟩
  | some known =>
      dsimp only
      split_ifs
      · exact .inl ⟨_, rfl⟩
      · exact .inl ⟨_, rfl⟩
      · exact .inr ⟨known, rfl, rfl⟩

/-- A server whose session was revoked is marked anew. -/
theorem Sound.mark (sound : history.Sound) {config : ServerConfig} (named : config.id = key)
    (status : ServerStatus) :
    { history with manager := { history.manager.revoke key with
      configs := history.manager.configs.set key config
      states := history.manager.states.set key status } }.Sound := by
  refine (sound.revoke key).remark _ _ (fun other found held => ?_) fun other listing => ?_
  · rw [Dict.get_set] at held
    split at held
    · next same =>
        cases held
        exact named.trans same.symm
    · exact sound.keyed other found held
  · have differs : other ≠ key := by
      rcases Option.ne_none_iff_exists'.mp listing with ⟨names, found⟩
      exact (MCPManager.get_names_revoke.mp found).2
    rw [Dict.get_set, if_neg differs]
    rfl

theorem Sound.entered (sound : history.Sound) (key : String) (persisted : Except Error Unit)
    (draws : history.Draws revision) :
    (history.entered key revision persisted).2.Sound := by
  have drew := sound.draw (key, revision)
  rcases enter_cases history.manager key revision persisted with
    ⟨error, refused⟩ | ⟨known, found, opened⟩
  · simp only [MCPHistory.entered, refused]
    exact drew
  · have named : (known.withEnabled true).id = key := sound.keyed key known found
    have unended : (key, revision) ∉ history.ended := fun member =>
      draws.2 (List.mem_map_of_mem (sound.ended _ member).1)
    have idle : (history.manager.revoke key).connections.get key = none := by
      by_contra connected
      rcases Option.ne_none_iff_exists'.mp connected with ⟨index, held⟩
      exact (MCPManager.get_connections_revoke.mp held).2 rfl
    have renewed := (drew.mark named .connecting).renew
      (List.mem_append_right _ (List.mem_singleton_self _)) unended idle
    simp only [MCPHistory.entered, opened]
    cases persisted with
    | error error => exact renewed
    | ok done =>
        refine renewed.begin (List.mem_append_right _ (List.mem_singleton_self _)) ?_
          ⟨named, draws.1⟩ rfl
        intro member
        rcases List.mem_map.mp member with ⟨other, called, same⟩
        have drawn := List.mem_map_of_mem (f := Prod.snd) (sound.drawn other called)
        exact draws.2 ((show other.revision = revision from same) ▸ drawn)

theorem disable_cases (manager : MCPManager) (key : String) (persisted : Except Error Unit) :
    (∃ error, manager.disable key persisted = (.error error, manager)) ∨
    ∃ known, manager.configs.get key = some known ∧
      manager.disable key persisted = (persisted, { manager.revoke key with
        configs := manager.configs.set key (known.withEnabled false)
        states := manager.states.set key .disabled }) := by
  unfold MCPManager.disable
  cases manager.configs.get key with
  | none => exact .inl ⟨_, rfl⟩
  | some known => exact .inr ⟨known, rfl, rfl⟩

/-- Sessions that are not current end. -/
theorem Sound.finish (sound : history.Sound) {ended : List (String × String)}
    (idle : ∀ session ∈ ended, session ∈ history.drawn ∧
      history.manager.holds session.1 session.2 = false) :
    { history with ended }.Sound :=
  { sound with ended := idle }

theorem Sound.withRestores (sound : history.Sound) (restores : List RestoreCall) :
    { history with restores }.Sound :=
  { sound with }

theorem Sound.withHandlers (sound : history.Sound) {handlers : List HandlerCall}
    (late : ∀ call ∈ handlers, call.late = true → call.phase = .refused) :
    { history with handlers }.Sound :=
  { sound with late }

theorem Sound.disable (sound : history.Sound) (key : String) (persisted : Except Error Unit)
    {next : MCPHistory}
    (stepped : history.step environment (.disable key persisted) = some next) :
    next.Sound := by
  rcases disable_cases history.manager key persisted with
    ⟨error, refused⟩ | ⟨known, found, disabled⟩
  · simp only [step, refused] at stepped
    cases stepped
    exact sound
  · have named : (known.withEnabled false).id = key := sound.keyed key known found
    have marked := sound.mark named .disabled
    cases persisted with
    | error error =>
        simp only [step, disabled] at stepped
        cases stepped
        exact marked
    | ok done =>
        simp only [step, disabled] at stepped
        cases stepped
        refine marked.finish fun session member => ?_
        rcases List.mem_append.mp member with before | new
        · exact marked.ended session before
        · rcases List.mem_filter.mp new with ⟨drawn, same⟩
          refine ⟨drawn, ?_⟩
          rw [beq_iff_eq] at same
          rw [← Bool.not_eq_true, MCPManager.holds_iff]
          rintro ⟨_, current⟩
          exact (MCPManager.get_revisions_revoke.mp current).2 same

/-! Every connection that is left is revoked when the manager closes. -/

theorem foldl_revoke_closed (manager : MCPManager) (keys : List String) :
    keys.foldl MCPManager.revoke { manager with closed := true } =
      { keys.foldl MCPManager.revoke manager with closed := true } := by
  induction keys generalizing manager with
  | nil => rfl
  | cons key rest induction => exact induction (manager.revoke key)

theorem get_connections_foldl_revoke {manager : MCPManager} {keys : List String}
    {other : String} {connection : Nat} :
    (keys.foldl MCPManager.revoke manager).connections.get other = some connection ↔
      manager.connections.get other = some connection ∧ other ∉ keys := by
  induction keys generalizing manager with
  | nil => simp
  | cons key rest induction =>
      rw [List.foldl_cons, induction, MCPManager.get_connections_revoke, List.mem_cons,
        not_or, and_assoc]

theorem Sound.revokeAll (sound : history.Sound) (keys : List String) :
    { history with manager := keys.foldl MCPManager.revoke history.manager }.Sound := by
  induction keys generalizing history with
  | nil => exact sound
  | cons key rest induction => exact induction (sound.revoke key)

theorem Sound.close (sound : history.Sound) :
    { history with manager := history.manager.close, ended := history.drawn }.Sound := by
  let keys := history.manager.connections.entries.map Prod.fst
  have revoked := sound.revokeAll keys
  have unconnected : ∀ key index,
      (keys.foldl MCPManager.revoke history.manager).connections.get key ≠ some index := by
    intro key index connected
    rcases get_connections_foldl_revoke.mp connected with ⟨held, apart⟩
    exact apart (Dict.get_isSome.mp (by rw [held]; rfl))
  have unlisted : ∀ key names,
      (keys.foldl MCPManager.revoke history.manager).names.get key ≠ some names := by
    intro key names listing
    rcases (revoked.listed key names listing).2 with ⟨index, _, _, _, connected, _⟩
    exact unconnected key index connected
  have shape : history.manager.close =
      { keys.foldl MCPManager.revoke history.manager with closed := true } :=
    foldl_revoke_closed history.manager keys
  rw [shape]
  exact { revoked with
    joined := fun key index connected => absurd connected (unconnected key index)
    listed := fun key names listing => absurd listing (unlisted key names)
    ended := fun session member => ⟨member, rfl⟩ }

theorem Sound.save (sound : history.Sound) (config : ServerConfig) :
    { history with manager := (history.manager.save config persisted).2 }.Sound := by
  unfold MCPManager.save
  split_ifs
  · exact sound
  · exact sound
  · exact sound
  · exact sound
  · refine sound.remark _ _ (fun key known found => ?_) fun _ _ => rfl
    rw [Dict.get_set] at found
    split at found
    · next same =>
        cases found
        exact same.symm
    · exact sound.keyed key known found

/-- A handler's call that comes late is refused. -/
theorem Sound.invoked (sound : history.Sound) (handler : MCPHandler) (arguments : Arguments)
    (late : (history.invoked handler arguments).late = true) :
    (history.invoked handler arguments).phase = .refused := by
  have idle := (sound.ended _ (of_decide_eq_true late)).2
  have stale : (history.manager.closed ||
      history.manager.revisions.get handler.key != some handler.revision) = true := by
    rw [MCPManager.holds, Bool.and_eq_false_iff, Bool.not_eq_false'] at idle
    rw [Bool.or_eq_true]
    exact idle.imp_right fun other => by simpa using other
  simp only [MCPHistory.invoked, MCPManager.heeds, stale, if_true]

theorem Sound.restoreNext (sound : history.Sound) {call : RestoreCall} {next : MCPHistory}
    (stepped : history.restoreNext index call revision persisted = some next) :
    next.Sound := by
  unfold MCPHistory.restoreNext at stepped
  split at stepped
  · cases stepped
    exact sound.withRestores _
  · split at stepped
    · cases stepped
    · split at stepped
      · cases stepped
      · next key config rest _ =>
          split at stepped
          · cases stepped
            exact sound.withRestores _
          · split at stepped
            · next draws =>
                have entered := sound.entered key persisted draws
                split at stepped
                · next same =>
                    cases stepped
                    rw [same] at entered
                    exact entered.withRestores _
                · next same =>
                    cases stepped
                    rw [same] at entered
                    exact entered.withRestores _
            · cases stepped

theorem Sound.step (sound : history.Sound) {label : MCPStep} {next : MCPHistory}
    (stepped : history.step environment label = some next) : next.Sound := by
  cases label with
  | save config persisted =>
      cases stepped
      exact sound.save config
  | enable key revision persisted =>
      simp only [MCPHistory.step] at stepped
      split at stepped
      · next draws =>
          cases stepped
          exact sound.entered key persisted draws
      · cases stepped
  | advance index reading =>
      rcases Option.bind_eq_some_iff.mp stepped with ⟨call, found, stepped⟩
      rcases Option.bind_eq_some_iff.mp stepped with ⟨⟨after, manager⟩, advanced, stepped⟩
      cases stepped
      exact sound.advance found advanced
  | disable key persisted => exact sound.disable key persisted stepped
  | restore =>
      cases stepped
      exact sound.withRestores _
  | restoreNext index revision persisted =>
      rcases Option.bind_eq_some_iff.mp stepped with ⟨call, _, stepped⟩
      exact sound.restoreNext stepped
  | close =>
      cases stepped
      exact sound.close
  | invoke handler arguments =>
      cases stepped
      refine sound.withHandlers fun call member late => ?_
      rcases List.mem_append.mp member with before | new
      · exact sound.late call before late
      · rw [List.mem_singleton.mp new] at late ⊢
        exact sound.invoked handler arguments late
  | send index =>
      rcases Option.bind_eq_some_iff.mp stepped with ⟨call, found, stepped⟩
      split at stepped
      · next cleared =>
          cases stepped
          refine sound.withHandlers fun other member late => ?_
          rcases List.mem_or_eq_of_mem_set member with before | rfl
          · exact sound.late other before late
          · have refused := sound.late call (List.mem_of_getElem? found) late
            cases cleared.symm.trans refused
      · cases stepped

/-! ## The lifecycle -/

end MCPHistory

/-- The phases of a call that has made a connection. -/
def EnablePhase.hasConnection : EnablePhase → Bool
  | .opened | .raised => false
  | _ => true

/-- The phases of a call that fails. -/
def EnablePhase.hasFailed : EnablePhase → Bool
  | .failing | .recording | .failed => true
  | _ => false

/-- What holds in every state that the manager comes to. -/
structure MCPHistory.Lifecycle (environment : MCPEnvironment) (history : MCPHistory) : Prop where
  /-- The registry has the tools that the connected servers list. -/
  tools : ∀ name, (∃ handler, history.manager.tool name = some handler) ↔
    ∃ key names, history.manager.names.get key = some names ∧ name ∈ names ∧
      history.manager.states.get key = some .connected
  /-- Each is listed by its own server, and is of the current revision. -/
  current : ∀ name handler, history.manager.tool name = some handler →
    (∃ names, history.manager.names.get handler.key = some names ∧ name ∈ names) ∧
      history.manager.holds handler.key handler.revision = true
  /-- A late call of a handler sends no request. -/
  handlers : ∀ call ∈ history.handlers, call.late = true → call.phase ≠ .requested
  /-- A connection whose session is over or failed is closed, but where the call of `enable`
  has not come to the section that closes it. -/
  connections : ∀ index call, history.enables[index]? = some call →
    call.phase.hasConnection = true →
    history.manager.holds call.key call.revision = false ∨ call.phase.hasFailed = true →
      index ∈ history.manager.disposed ∨ call.phase = .made ∨ call.phase = .failing
  /-- That call goes on to close it. -/
  failing : ∀ index call reading, history.enables[index]? = some call →
    call.phase = .failing → ∃ next,
      MCPHistory.step environment history (.advance index reading) = some next ∧
        index ∈ next.manager.disposed
  made : ∀ index call reading, history.enables[index]? = some call → call.phase = .made →
    history.manager.holds call.key call.revision = false → ∃ next,
      MCPHistory.step environment history (.advance index reading) = some next ∧
        next.enables[index]? = some { call with phase := .failing }
  /-- A call that is over leaves no connection open but the current one of its server. -/
  finished : ∀ index call, history.enables[index]? = some call → call.phase.over = true →
    call.phase.hasConnection = true → index ∈ history.manager.disposed ∨
      (call.phase = .published ∧ history.manager.holds call.key call.revision = true ∧
        history.manager.connections.get call.key = some index)

namespace MCPHistory

variable {history : MCPHistory} {index : Nat} {call : EnableCall}

/-- A connection that the manager has, unless it is closed. -/
theorem Sound.open_current (sound : history.Sound)
    (found : history.enables[index]? = some call) (joined : call.phase.hasJoined = true) :
    index ∈ history.manager.disposed ∨
      (history.manager.holds call.key call.revision = true ∧
        history.manager.connections.get call.key = some index) := by
  rcases sound.kept index call found joined with connected | closed
  · rcases sound.joined _ _ connected with ⟨_, again, _, holds⟩
    cases found.symm.trans again
    exact .inr ⟨holds, connected⟩
  · exact .inl closed

theorem step_advance {environment : MCPEnvironment} {reading : ConnectReading}
    {next : EnableCall} {manager : MCPManager} (found : history.enables[index]? = some call)
    (advanced : call.advance environment history.manager index reading = some (next, manager)) :
    step environment history (.advance index reading) =
      some { history with manager, enables := history.enables.set index next } := by
  refine Option.bind_eq_some_iff.mpr ⟨call, found, ?_⟩
  exact Option.bind_eq_some_iff.mpr ⟨_, advanced, rfl⟩

theorem Sound.lifecycle (sound : history.Sound) (environment : MCPEnvironment) :
    history.Lifecycle environment where
  tools name := by
    constructor
    · rintro ⟨handler, registered⟩
      rcases (sound.registered name handler registered).1 with ⟨names, listing, member⟩
      exact ⟨handler.key, names, listing, member, (sound.listed _ names listing).1⟩
    · rintro ⟨key, names, listing, member, _⟩
      rcases (sound.listed key names listing).2 with ⟨_, _, _, _, _, present⟩
      rcases present name member with ⟨handler, registered, _⟩
      exact ⟨handler, registered⟩
  current name handler registered := by
    rcases (sound.registered name handler registered).1 with ⟨names, listing, member⟩
    refine ⟨⟨names, listing, member⟩, ?_⟩
    rcases (sound.listed _ names listing).2 with ⟨_, call, called, _, connected, present⟩
    rcases present name member with ⟨_, again, _, session⟩
    cases registered.symm.trans again
    rcases sound.joined _ _ connected with ⟨_, again, _, holds⟩
    cases called.symm.trans again
    rw [session]
    exact holds
  handlers call member late requested := by
    have refused := sound.late call member late
    cases requested.symm.trans refused
  connections index call found created ending := by
    cases phase : call.phase with
    | opened => rw [phase] at created; cases created
    | raised => rw [phase] at created; cases created
    | made => exact .inr (.inl rfl)
    | failing => exact .inr (.inr rfl)
    | recording => exact .inl (sound.disposed index call found (by rw [phase]; rfl))
    | failed => exact .inl (sound.disposed index call found (by rw [phase]; rfl))
    | joined | validated | published =>
        rcases sound.open_current found (by rw [phase]; rfl) with closed | ⟨holds, _⟩
        · exact .inl closed
        · rcases ending with ended | failed
          · rw [holds] at ended
            cases ended
          · rw [phase] at failed
            cases failed
  failing index call reading found phase := by
    have advanced : call.advance environment history.manager index reading =
        some ({ call with phase := .recording }, history.manager.dispose index) := by
      simp only [EnableCall.advance, phase]
    exact ⟨_, step_advance found advanced, List.mem_cons_self⟩
  made index call reading found phase ended := by
    have refused : ¬ history.manager.holds call.key call.revision = true := by
      rw [ended]
      exact Bool.false_ne_true
    have advanced : call.advance environment history.manager index reading =
        some ({ call with phase := .failing }, history.manager) := by
      simp only [EnableCall.advance, phase, MCPManager.join, if_neg refused]
    exact ⟨_, step_advance found advanced,
      List.getElem?_set_self (List.getElem?_eq_some_iff.mp found).1⟩
  finished index call found finished created := by
    cases phase : call.phase with
    | raised => rw [phase] at created; cases created
    | failed => exact .inl (sound.disposed index call found (by rw [phase]; rfl))
    | published =>
        rcases sound.open_current found (by rw [phase]; rfl) with closed | current
        · exact .inl closed
        · exact .inr ⟨rfl, current⟩
    | opened | made | joined | validated | failing | recording =>
        rw [phase] at finished
        cases finished

/-- Whatever the order of the sections and the outcomes of the connections, tools, handlers
and connections follow the servers' sessions. -/
theorem lifecycle_of_run {environment : MCPEnvironment} {stored : List ServerConfig}
    {others : OtherTools} {steps : List MCPStep} {history : MCPHistory}
    (reached : StepFunction.run (step environment) (start stored others) steps =
      some history) : history.Lifecycle environment :=
  (StepFunction.invariant_of_run (fun _ _ _ sound stepped => Sound.step sound stepped)
    (start_sound stored others) reached).lifecycle environment

/-- A server is saved and enabled, its tool is called, and after it is disabled called again. -/
def readSteps : List MCPStep :=
  let handler : MCPHandler := ⟨"files", "0123456789ab", "read", 0⟩
  [.save { id := "files", command := "mcp-files" } (.ok ()),
    .enable "files" "0123456789ab" (.ok ()), .advance 0 {}, .advance 0 {},
    .advance 0 { connect := .ok [.obj [("name", .str "read")]] }, .advance 0 {},
    .invoke handler [], .send 0, .disable "files" (.ok ()), .invoke handler []]

def plainEnvironment : MCPEnvironment where
  checkSchema _ := .ok ()
  sha256 text := Text.hex 64 text.length

theorem lifecycle_of_run_read : ∃ history,
    StepFunction.run (step plainEnvironment) (start [] {}) readSteps = some history ∧
      history.Lifecycle plainEnvironment := by
  have runs : (StepFunction.run (step plainEnvironment) (start [] {}) readSteps).isSome = true :=
    by decide
  rcases Option.isSome_iff_exists.mp runs with ⟨history, reached⟩
  exact ⟨history, reached, lifecycle_of_run reached⟩

end MCPHistory

end Raphael.Tools
