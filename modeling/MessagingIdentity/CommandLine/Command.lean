import MessagingIdentity.CommandLine.Configuration

namespace MessagingIdentity

structure MetaOptions where
  seed : Option String
  type : Option String
  network : Option UInt8

inductive Command where
  | init (c : Configuration)
  | generateKey (algorithm : String)
  | showKey (secret : Bool)
  | address (o : MetaOptions) (showMeta : Bool)
  | generateIdentifier (o : MetaOptions) (terminal : Option String)
  | parseIdentifier (text : String)
  | sign (message : String)
  | verify (message signature : String) (publicKey : Option String)
  | version

structure Invocation where
  command : Command
  directory : Option String

end MessagingIdentity
