import Pipistrelle.Lib.LevelPattern
import Pipistrelle.Router.Trie

set_option autoImplicit false

/- What the router is for: a table of subscriptions, searched by matching every
   filter in it against the levels of a topic. -/
namespace Pipistrelle.Router

open LevelPattern

def parseLevel (segment : String) : Level String :=
  if segment = "+" then .plus else if segment = "#" then .hash else .literal segment

structure Key where
  clientId : String
  group : Option String
  levels : List (Level String)
deriving DecidableEq, Repr

structure Granted where
  qos : UInt8
  subscriptionIdentifier : Option UInt32
deriving DecidableEq, Repr

abbrev Table := Assoc Key Granted

def subscriptionInfo (key : Key) (granted : Granted) : SubscriptionInfo :=
  ⟨key.clientId, granted.qos, granted.subscriptionIdentifier⟩

def filterLevels (topicFilter : String) : List (Level String) :=
  (splitLevels (parseSharedSubscription topicFilter).2).map parseLevel

def keyOf (clientId topicFilter : String) : Key :=
  ⟨clientId, (parseSharedSubscription topicFilter).1, cutLevels (filterLevels topicFilter)⟩

def Table.subscribe (table : Table) (clientId topicFilter : String) (qos : UInt8)
    (subscriptionIdentifier : Option UInt32) : Table :=
  table.insert (keyOf clientId topicFilter) ⟨qos, subscriptionIdentifier⟩

def Table.unsubscribe (table : Table) (clientId topicFilter : String) : Table × Bool :=
  if cutLevels (filterLevels topicFilter) = filterLevels topicFilter ∧
      (table.get (keyOf clientId topicFilter)).isSome then
    (table.remove (keyOf clientId topicFilter), true)
  else (table, false)

def Table.matching (table : Table) (group : Option String) (topic : String) : List SubscriptionInfo :=
  (table.entries.filter fun (key, _) => key.group = group && matchesLevels key.levels (splitLevels topic)).map
    fun (key, granted) => subscriptionInfo key granted

inductive RouterOp where
  | subscribe (clientId topicFilter : String) (qos : UInt8) (subscriptionIdentifier : Option UInt32)
  | unsubscribe (clientId topicFilter : String)

-- The router with what its unsubscribe calls have returned so far.
def RouterOp.onTrie (state : TrieNode × List Bool) : RouterOp → TrieNode × List Bool
  | .subscribe clientId topicFilter qos identifier =>
      (Router.subscribe state.1 clientId topicFilter qos identifier, state.2)
  | .unsubscribe clientId topicFilter =>
      let result := Router.unsubscribe state.1 clientId topicFilter
      (result.1, state.2 ++ [result.2])

def RouterOp.onTable (state : Table × List Bool) : RouterOp → Table × List Bool
  | .subscribe clientId topicFilter qos identifier =>
      (Table.subscribe state.1 clientId topicFilter qos identifier, state.2)
  | .unsubscribe clientId topicFilter =>
      let result := Table.unsubscribe state.1 clientId topicFilter
      (result.1, state.2 ++ [result.2])

theorem on_trie_subscribe (state : TrieNode × List Bool) (clientId topicFilter : String) (qos : UInt8)
    (identifier : Option UInt32) :
    RouterOp.onTrie state (.subscribe clientId topicFilter qos identifier) =
      (Router.subscribe state.1 clientId topicFilter qos identifier, state.2) := rfl

theorem on_trie_unsubscribe (state : TrieNode × List Bool) (clientId topicFilter : String) :
    RouterOp.onTrie state (.unsubscribe clientId topicFilter) =
      ((Router.unsubscribe state.1 clientId topicFilter).1,
        state.2 ++ [(Router.unsubscribe state.1 clientId topicFilter).2]) := rfl

theorem on_table_subscribe (state : Table × List Bool) (clientId topicFilter : String) (qos : UInt8)
    (identifier : Option UInt32) :
    RouterOp.onTable state (.subscribe clientId topicFilter qos identifier) =
      (Table.subscribe state.1 clientId topicFilter qos identifier, state.2) := rfl

theorem on_table_unsubscribe (state : Table × List Bool) (clientId topicFilter : String) :
    RouterOp.onTable state (.unsubscribe clientId topicFilter) =
      ((Table.unsubscribe state.1 clientId topicFilter).1,
        state.2 ++ [(Table.unsubscribe state.1 clientId topicFilter).2]) := rfl

def runTrie (ops : List RouterOp) : TrieNode × List Bool := ops.foldl RouterOp.onTrie ({}, [])

def runTable (ops : List RouterOp) : Table × List Bool := ops.foldl RouterOp.onTable ({}, [])

end Pipistrelle.Router
