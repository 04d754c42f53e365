import Pipistrelle.Lib.Assoc
import Pipistrelle.Router.Levels

set_option autoImplicit false

/- src/router.rs. A HashMap is an association list with distinct keys: where the
   source iterates over one, some order is fixed here, and what is proved about
   the result does not depend on it. The write lock makes each call atomic. -/
namespace Pipistrelle.Router

structure SubscriptionInfo where
  clientId : String
  qos : UInt8
  subscriptionIdentifier : Option UInt32
deriving DecidableEq, Repr

structure TrieNode where
  children : List (String × TrieNode) := []
  plusChild : Option TrieNode := none
  hashChild : Option TrieNode := none
  subscriptions : Assoc String SubscriptionInfo := {}
  sharedSubscriptions : Assoc String (List SubscriptionInfo) := {}

def TrieNode.isEmpty (self : TrieNode) : Bool :=
  self.children.isEmpty && self.plusChild.isNone && self.hashChild.isNone && self.subscriptions.isEmpty &&
    self.sharedSubscriptions.isEmpty

structure RouteResult where
  normal : List SubscriptionInfo := []
  shared : Assoc String (List SubscriptionInfo) := {}

-- The loop over the segments, with the node it reaches rebuilt on the way back.
def subscribeAt (store : TrieNode → TrieNode) : List String → TrieNode → TrieNode
  | [], current => store current
  | segment :: rest, current =>
      if segment = "+" then
        { current with plusChild := some (subscribeAt store rest (current.plusChild.getD {})) }
      else if segment = "#" then
        -- break: what follows the '#' is not looked at
        { current with hashChild := some (store (current.hashChild.getD {})) }
      else
        let child := (Entries.find segment current.children).getD {}
        { current with children := Entries.put segment (subscribeAt store rest child) current.children }

def storeSubscription (group : Option String) (subInfo : SubscriptionInfo) (current : TrieNode) : TrieNode :=
  match group with
  | some grp =>
      let list := (current.sharedSubscriptions.get grp).getD []
      let list := list.filter (fun s => s.clientId != subInfo.clientId) ++ [subInfo]
      { current with sharedSubscriptions := current.sharedSubscriptions.insert grp list }
  | none => { current with subscriptions := current.subscriptions.insert subInfo.clientId subInfo }

def subscribe (root : TrieNode) (clientId topicFilter : String) (qos : UInt8)
    (subscriptionIdentifier : Option UInt32) : TrieNode :=
  let (group, filter) := parseSharedSubscription topicFilter
  subscribeAt (storeSubscription group ⟨clientId, qos, subscriptionIdentifier⟩) (splitLevels filter) root

def removeSubscription (clientId : String) (group : Option String) (node : TrieNode) : TrieNode × Bool :=
  match group with
  | some grp =>
      match node.sharedSubscriptions.get grp with
      | some list =>
          let kept := list.filter fun s => s.clientId != clientId
          let shared := if kept.isEmpty then node.sharedSubscriptions.remove grp
            else node.sharedSubscriptions.insert grp kept
          ({ node with sharedSubscriptions := shared }, decide (kept.length < list.length))
      | none => (node, false)
  | none =>
      ({ node with subscriptions := node.subscriptions.remove clientId }, (node.subscriptions.get clientId).isSome)

-- The node after the call, and the pair that the source returns: whether a
-- subscription was removed, and whether the node is empty now.
def unsubscribeRecursive (clientId : String) (group : Option String) :
    List String → TrieNode → TrieNode × Bool × Bool
  | [], node =>
      let (node, removed) := removeSubscription clientId group node
      (node, removed, node.isEmpty)
  | segment :: rest, node =>
      if segment = "+" then
        match node.plusChild with
        | some child =>
            let (child, removed, childEmpty) := unsubscribeRecursive clientId group rest child
            let node := { node with plusChild := if childEmpty then none else some child }
            (node, removed, node.isEmpty)
        | none => (node, false, node.isEmpty)
      else if segment = "#" then
        match node.hashChild with
        | some child =>
            let (child, removed, childEmpty) := unsubscribeRecursive clientId group rest child
            let node := { node with hashChild := if childEmpty then none else some child }
            (node, removed, node.isEmpty)
        | none => (node, false, node.isEmpty)
      else
        match Entries.find segment node.children with
        | some child =>
            let (child, removed, childEmpty) := unsubscribeRecursive clientId group rest child
            let children := if childEmpty then Entries.drop segment node.children
              else Entries.put segment child node.children
            let node := { node with children }
            (node, removed, node.isEmpty)
        | none => (node, false, node.isEmpty)

def unsubscribe (root : TrieNode) (clientId topicFilter : String) : TrieNode × Bool :=
  let (group, filter) := parseSharedSubscription topicFilter
  let (root, removed, _) := unsubscribeRecursive clientId group (splitLevels filter) root
  (root, removed)

def collectNodeSubscriptions (node : TrieNode) (result : RouteResult) : RouteResult where
  normal := result.normal ++ node.subscriptions.values
  shared := node.sharedSubscriptions.entries.foldl
    (fun shared (group, list) => shared.insert group ((shared.get group).getD [] ++ list)) result.shared

def collectHash (node : TrieNode) (result : RouteResult) : RouteResult :=
  match node.hashChild with
  | some hashChild => collectNodeSubscriptions hashChild result
  | none => result

def matchRecursive : List String → TrieNode → RouteResult → RouteResult
  | [], node, result => collectNodeSubscriptions node (collectHash node result)
  | segment :: rest, node, result =>
      let result := collectHash node result
      let result := match Entries.find segment node.children with
        | some child => matchRecursive rest child result
        | none => result
      match node.plusChild with
      | some plusChild => matchRecursive rest plusChild result
      | none => result

def matchTopic (root : TrieNode) (topic : String) : RouteResult := matchRecursive (splitLevels topic) root {}

end Pipistrelle.Router
