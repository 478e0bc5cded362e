import NativeMessaging.Message.Address

/-!
# Message — Basic

Whole messages, ready to be dispatched.
-/

namespace NativeMessaging

/-- What arrives at the host: the request to load the plugin of a mimetype, one half of a call, or
the description of something that could not be understood. -/
inductive Message where
  | create (mimetype : String)
  | command (colony : ColonyId) (id : MessageId) (payload : String)
  | response (colony : ColonyId) (id : MessageId) (payload : String)
  | error (description : String)
  deriving DecidableEq, Repr

/-- The message that carries one half of a call. -/
def Message.ofCall : Direction → ColonyId → MessageId → String → Message
  | .command  => .command
  | .response => .response

end NativeMessaging
