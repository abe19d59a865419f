/-
Traffic types (`pkg/classifier`): the cost class of a network flow, with the
canonical string the storage and the meters use for it.
-/
import Mathlib.Init

/-- The cost class of a flow. -/
inductive TrafficType
  | unknown
  | sameZone
  | crossAZ
  | crossRegion
  | internetEgress
  | natGatewayEgress
  | vpcPeering
  | transitGateway
  | vpcEndpoint
  | cloudServicePublic
  | intraNode
  | serviceMeshInternal
  deriving DecidableEq, Repr

/-- `TrafficType.String`. -/
def TrafficType.string : TrafficType → String
  | .sameZone => "same_zone"
  | .crossAZ => "cross_az"
  | .crossRegion => "cross_region"
  | .internetEgress => "internet_egress"
  | .natGatewayEgress => "nat_gateway"
  | .vpcPeering => "vpc_peering"
  | .transitGateway => "transit_gateway"
  | .vpcEndpoint => "vpc_endpoint"
  | .cloudServicePublic => "cloud_service_public"
  | .intraNode => "intra_node"
  | .serviceMeshInternal => "service_mesh_internal"
  | .unknown => "unknown"
