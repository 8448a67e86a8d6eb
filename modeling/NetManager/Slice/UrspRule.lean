import NetManager.Library.Wire

/-!
# Rules of network slices

The data of route selection policies: traffic descriptors, route selection descriptors
and rules. Members that the source leaves uninitialised are 0 or false here.
-/

namespace NetManager.Slice

open Wire

structure OsAppId where
  osId : Bytes := []
  appId : Bytes := []
  deriving DecidableEq

structure Ipv4Addr where
  addr : UInt32
  mask : UInt32
  deriving DecidableEq

structure Ipv6Addr where
  addr : Bytes
  prefixLen : Int
  deriving DecidableEq

structure RemotePortRange where
  low : Int
  high : Int
  deriving DecidableEq

structure TrafficDescriptor where
  isMatchAll : Bool := false
  osAppIds : List OsAppId := []
  ipv4Addrs : List Ipv4Addr := []
  ipv6Addrs : List Ipv6Addr := []
  protocolIds : List Int := []
  singleRemotePorts : List Int := []
  remotePortRanges : List RemotePortRange := []
  dnns : List Bytes := []
  fqdns : List Bytes := []
  connectionCapabilities : List Int := []
  deriving DecidableEq

structure Snssai where
  snssaiLen : Nat := 0
  sst : UInt8 := 0
  sd : Int := 0
  mappedSst : UInt8 := 0
  mappedSd : Int := 0
  snssai : Bytes := []
  deriving DecidableEq

structure RouteSelectionDescriptor where
  routePrecedence : Int := 0
  pduSessionType : Int := 0
  sscMode : UInt8 := 0
  snssais : List Snssai := []
  dnns : List Bytes := []
  deriving DecidableEq

structure UrspRule where
  urspPrecedence : Int := 0
  trafficDescriptor : TrafficDescriptor := {}
  routeSelectionDescriptors : List RouteSelectionDescriptor := []
  deriving DecidableEq

end NetManager.Slice
