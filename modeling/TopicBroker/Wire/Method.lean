import TopicBroker.Role

/-!
# Methods

The methods that a request may name, by their tags. A method may also be named by its tag without
the word that all tags end in. Most methods are for one role only.
-/

namespace TopicBroker.Wire

/-- What a request asks for. -/
inductive Method where
  | showTopic
  | connectToTopic
  | disconnectFromTopic
  | publishMessage
  | checkMessageStatus
  | subscribeToTopic
  | unsubscribeFromTopic
  | getSubscribedTopics
  | getMessageFromTopic
  deriving DecidableEq, Repr

namespace Method

def all : List Method :=
  [showTopic, connectToTopic, disconnectFromTopic, publishMessage, checkMessageStatus,
    subscribeToTopic, unsubscribeFromTopic, getSubscribedTopics, getMessageFromTopic]

def shortName : Method → String
  | showTopic => "showTopic"
  | connectToTopic => "connectToTopic"
  | disconnectFromTopic => "disconnectFromTopic"
  | publishMessage => "publishMessage"
  | checkMessageStatus => "checkMessageStatus"
  | subscribeToTopic => "subscribeToTopic"
  | unsubscribeFromTopic => "unsubscribeFromTopic"
  | getSubscribedTopics => "getSubscribedTopics"
  | getMessageFromTopic => "getMessageFromTopic"

def tag (method : Method) : String :=
  method.shortName ++ "Request"

def ofTag? (tag : String) : Option Method :=
  all.find? fun method => method.tag == tag || method.shortName == tag

def allows : Method → Role → Bool
  | showTopic, _ => true
  | connectToTopic, role | disconnectFromTopic, role | publishMessage, role
  | checkMessageStatus, role => role = .publisher
  | subscribeToTopic, role | unsubscribeFromTopic, role | getSubscribedTopics, role
  | getMessageFromTopic, role => role = .subscriber

end Method

end TopicBroker.Wire
