/-
The loader (`pkg/ebpf/loader.go`), as far as it decides who counts sent UDP
bytes.

`start` attaches the programs and then pushes the configuration, whose
`udp_socket_tx` bit depends on how attaching `fentry/udp_sendmsg` ended.  Until
then `agent_config` is zero, as loaded, and capture is off.  `setEnabled` is the
run-time toggle.
-/
import Tollwing.BpfMaps

/-- The settings of `LoaderConfig` that are pushed to the kernel. -/
structure LoaderConfig where
  enabled : Bool
  trackUDP : Bool
  sampleRate : UInt8
  deriving DecidableEq, Repr

def LoaderConfig.setDefaults (cfg : LoaderConfig) : LoaderConfig :=
  if cfg.sampleRate = 0 then { cfg with sampleRate := 1 } else cfg

/-- How attaching an optional program ended. -/
inductive AttachOutcome
  | attached
  | skipped
  | failed
  deriving DecidableEq, Repr

/-- What the kernel and the host offer the two programs that can count sent UDP
bytes: the feature probes, whether the program is in the loaded collection,
whether a network interface was found, and whether the link could be made. -/
structure KernelSupport where
  haveFentry : Bool
  udpSendmsgLoaded : Bool
  udpSendmsgLink : Bool
  quicLoaded : Bool
  interfaceFound : Bool
  haveTCX : Bool
  quicLink : Bool
  deriving DecidableEq, Repr

/-- `attachFentry` and `attachTCX` fail without the program or the link. -/
def attachOutcome (loaded link : Bool) : AttachOutcome :=
  if loaded && link then .attached else .failed

/-- A loader that has attached its programs. -/
structure Loader where
  cfg : LoaderConfig
  udpSendmsg : AttachOutcome
  quicEgress : AttachOutcome
  deriving DecidableEq, Repr

namespace Loader

/-- The attach phase of `Start`. -/
def attach (cfg : LoaderConfig) (kernel : KernelSupport) : Loader :=
  { cfg := cfg.setDefaults
    udpSendmsg :=
      if kernel.haveFentry then attachOutcome kernel.udpSendmsgLoaded kernel.udpSendmsgLink
      else .skipped
    quicEgress :=
      if kernel.quicLoaded && kernel.interfaceFound && kernel.haveTCX then
        attachOutcome kernel.quicLoaded kernel.quicLink
      else .skipped }

def udpSendmsgAttached (l : Loader) : Bool := l.udpSendmsg == .attached

/-- `udpSocketTX`: the socket path owns the sent UDP bytes. -/
def udpSocketTX (trackUDP udpSendmsgAttached : Bool) : Bool :=
  if trackUDP && udpSendmsgAttached then true else false

/-- The configuration `pushConfig` writes. -/
def agentConfig (l : Loader) : AgentConfig :=
  { enabled := l.cfg.enabled
    trackUDP := l.cfg.trackUDP
    sampleRate := l.cfg.sampleRate
    udpSocketTx := udpSocketTX l.cfg.trackUDP l.udpSendmsgAttached }

/-- The entry of `agent_config` before anything is pushed. -/
def zeroConfig : AgentConfig :=
  { enabled := false, trackUDP := false, sampleRate := 0, udpSocketTx := false }

end Loader

/-- `SetEnabled`: read the configuration, change the one bit, write it back. -/
def Kernel.setEnabled {n : ℕ} (enabled : Bool) (k : Kernel n) : Kernel n :=
  k.setConfig { k.agentConfig with enabled := enabled }
