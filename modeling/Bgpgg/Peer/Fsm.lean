import Bgpgg.Peer.Negotiation
import Bgpgg.Server.Ops
import Bgpgg.Wire.NlriCodec

namespace Bgpgg.Peer

open Wire Server

inductive MessageHeaderError where
  | connectionNotSynchronized
  | badMessageLength
  | badMessageType
  | unknown (code : UInt8)
deriving DecidableEq, Repr

inductive RouteRefreshMessageError where
  | invalidMessageLength
  | unknown (code : UInt8)
deriving DecidableEq, Repr

inductive CeaseSubcode where
  | maxPrefixesReached
  | administrativeShutdown
  | peerDeconfigured
  | administrativeReset
  | connectionRejected
  | otherConfigurationChange
  | connectionCollisionResolution
  | outOfResources
  | unknown (code : UInt8)
deriving DecidableEq, Repr

inductive BgpError where
  | messageHeaderError (error : MessageHeaderError)
  | openMessageError (error : OpenMessageError)
  | updateMessageError (error : UpdateMessageError)
  | holdTimerExpired
  | finiteStateMachineError
  | cease (subcode : CeaseSubcode)
  | routeRefreshMessageError (error : RouteRefreshMessageError)
  | unknown
deriving DecidableEq, Repr

structure NotificationMessage where
  error : BgpError
  data : List UInt8 := []
deriving DecidableEq, Repr

namespace NotificationMessage

def isVersionError (notif : NotificationMessage) : Bool := notif.error == .openMessageError .unsupportedVersionNumber

def ofRejection (rejection : Rejection) : NotificationMessage :=
  ⟨.openMessageError rejection.notification.error, rejection.notification.data⟩

end NotificationMessage

-- The parameters of an OPEN event are read off the message and the local configuration.
inductive FsmEvent where
  | manualStart
  | manualStop
  | automaticStart
  | manualStartPassive
  | automaticStartPassive
  | automaticStop (subcode : CeaseSubcode)
  | connectRetryTimerExpires
  | holdTimerExpires
  | keepaliveTimerExpires
  | delayOpenTimerExpires
  | idleHoldTimerExpires
  | tcpConnectionConfirmed
  | tcpConnectionFails
  | bgpOpenReceived (message : OpenMessage)
  | bgpOpenWithDelayOpenTimer (message : OpenMessage)
  | bgpHeaderErr (notif : NotificationMessage)
  | bgpOpenMsgErr (notif : NotificationMessage)
  | notifMsgVerErr (notif : NotificationMessage)
  | notifMsg (notif : NotificationMessage)
  | bgpKeepaliveReceived
  | bgpUpdateReceived
  | bgpUpdateMsgErr (notif : NotificationMessage)
deriving DecidableEq, Repr

-- A timer is running or not; that it has expired is an input of the task. Times are seconds.
structure FsmTimers where
  holdTime : Nat := 180
  connectRetry : Bool := false
  hold : Bool := false
  keepalive : Bool := false
  delayOpen : Bool := false
deriving DecidableEq, Repr

def INITIAL_HOLD_TIME : Nat := 240

structure Fsm where
  state : BgpState := .idle
  timers : FsmTimers := {}
  passiveMode : Bool := false
  gracefulRestartNegotiated : Bool := false
deriving DecidableEq, Repr

namespace Fsm

variable (fsm : Fsm)

def startState : BgpState := if fsm.passiveMode then .active else .connect

def fromIdle : FsmEvent → BgpState
  | .manualStart | .automaticStart => .connect
  | .manualStartPassive | .automaticStartPassive => .active
  | .idleHoldTimerExpires => fsm.startState
  | _ => .idle

def fromConnect : FsmEvent → BgpState
  | .connectRetryTimerExpires => .connect
  | .delayOpenTimerExpires | .tcpConnectionConfirmed => .openSent
  | .tcpConnectionFails => .active
  | .bgpOpenWithDelayOpenTimer _ => .openConfirm
  | .manualStop | .bgpOpenReceived _ | .bgpHeaderErr _ | .bgpOpenMsgErr _ | .notifMsgVerErr _ | .notifMsg _ => .idle
  | .automaticStop _ | .holdTimerExpires | .keepaliveTimerExpires | .idleHoldTimerExpires => .idle
  | .bgpKeepaliveReceived | .bgpUpdateReceived | .bgpUpdateMsgErr _ => .idle
  | .manualStart | .automaticStart | .manualStartPassive | .automaticStartPassive => .connect

def fromActive : FsmEvent → BgpState
  | .connectRetryTimerExpires => fsm.startState
  | .delayOpenTimerExpires | .tcpConnectionConfirmed => .openSent
  | .bgpOpenWithDelayOpenTimer _ => .openConfirm
  | .manualStop | .tcpConnectionFails | .bgpOpenReceived _ | .bgpHeaderErr _ | .bgpOpenMsgErr _ => .idle
  | .notifMsgVerErr _ | .notifMsg _ | .automaticStop _ | .holdTimerExpires | .keepaliveTimerExpires => .idle
  | .idleHoldTimerExpires | .bgpKeepaliveReceived | .bgpUpdateReceived | .bgpUpdateMsgErr _ => .idle
  | .manualStart | .automaticStart | .manualStartPassive | .automaticStartPassive => .active

def fromOpenSent : FsmEvent → BgpState
  | .tcpConnectionFails => .active
  | .bgpOpenReceived _ | .bgpOpenWithDelayOpenTimer _ => .openConfirm
  | .manualStop | .automaticStop _ | .holdTimerExpires | .bgpHeaderErr _ | .bgpOpenMsgErr _ => .idle
  | .bgpUpdateMsgErr _ | .notifMsgVerErr _ | .notifMsg _ => .idle
  | .connectRetryTimerExpires | .keepaliveTimerExpires | .delayOpenTimerExpires | .idleHoldTimerExpires => .idle
  | .bgpKeepaliveReceived | .bgpUpdateReceived => .idle
  | .manualStart | .automaticStart | .manualStartPassive | .automaticStartPassive => .openSent
  | .tcpConnectionConfirmed => .openSent

def fromOpenConfirm : FsmEvent → BgpState
  | .keepaliveTimerExpires => .openConfirm
  | .bgpKeepaliveReceived => .established
  | .manualStop | .automaticStop _ | .holdTimerExpires | .tcpConnectionFails | .bgpHeaderErr _ => .idle
  | .bgpOpenMsgErr _ | .notifMsgVerErr _ | .notifMsg _ => .idle
  | .connectRetryTimerExpires | .delayOpenTimerExpires | .idleHoldTimerExpires => .idle
  | .bgpOpenWithDelayOpenTimer _ | .bgpUpdateReceived | .bgpUpdateMsgErr _ => .idle
  | .manualStart | .automaticStart | .manualStartPassive | .automaticStartPassive => .openConfirm
  | .tcpConnectionConfirmed | .bgpOpenReceived _ => .openConfirm

def fromEstablished : FsmEvent → BgpState
  | .manualStart | .automaticStart | .manualStartPassive | .automaticStartPassive => .established
  | .keepaliveTimerExpires | .bgpKeepaliveReceived | .bgpUpdateReceived => .established
  | .tcpConnectionConfirmed => if fsm.gracefulRestartNegotiated then .connect else .established
  | .manualStop | .automaticStop _ | .holdTimerExpires | .tcpConnectionFails | .bgpUpdateMsgErr _ => .idle
  | .notifMsgVerErr _ | .notifMsg _ => .idle
  | .connectRetryTimerExpires | .delayOpenTimerExpires | .idleHoldTimerExpires => .idle
  | .bgpOpenWithDelayOpenTimer _ | .bgpHeaderErr _ | .bgpOpenMsgErr _ => .idle
  | .bgpOpenReceived _ => .established

def handleEvent (event : FsmEvent) : BgpState := match fsm.state with
  | .idle => fsm.fromIdle event
  | .connect => fromConnect event
  | .active => fsm.fromActive event
  | .openSent => fromOpenSent event
  | .openConfirm => fromOpenConfirm event
  | .established => fsm.fromEstablished event

end Fsm

end Bgpgg.Peer
